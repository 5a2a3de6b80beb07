import StateGraph.Proofs.Restore

set_option autoImplicit false

/-!
# Graphs survive being stored

A graph that is written and read again agrees with the one it was written from
(`Graph.Agrees`): everything that follows from the forward index and from the
properties comes in the same order, and what follows from the backward index comes
in an order of its own.  Written again, the restored graph gives the same bytes, so
a second reading gives what the first one gave, orders included.

The number of edges is stored too, and checked when a graph is read.  It is right for
every graph that a history leads to, so each of them survives (`Graph.roundTrips_run`).
-/

namespace StateGraph

namespace Adjacency.Rebuilt

variable {a b : Adjacency}

theorem successors (hrebuilt : a.Rebuilt b) : b.successors = a.successors := by
  funext n
  rw [Adjacency.successors, Adjacency.successors, hrebuilt.targets]

/-- The nodes that a path leads to are found in the same order, because the search
goes along the targets. -/
theorem descendants (hrebuilt : a.Rebuilt b) (n : NodeId) : b.descendants n = a.descendants n := by
  rw [Adjacency.descendants, Adjacency.descendants, hrebuilt.successors]
  exact reach_congr a.successors hrebuilt.sources n

theorem ancestors (hrebuilt : a.Rebuilt b) (n : NodeId) :
    (b.ancestors n).Perm (a.ancestors n) := by
  rw [Adjacency.ancestors, Adjacency.ancestors, hrebuilt.targets]
  exact perm_reach hrebuilt.predecessors a.targets.nodup_keys n

theorem inEdges (hrebuilt : a.Rebuilt b) (n : NodeId) : (b.inEdges n).Perm (a.inEdges n) := by
  rw [Adjacency.inEdges, Adjacency.inEdges]
  simp only [hrebuilt.highestKey]
  exact (hrebuilt.predecessors n).flatMap_right _

end Adjacency.Rebuilt

namespace Graph

/-! ## Graphs that look the same -/

/-- Two graphs look the same, up to the order in which edges are walked
backwards. -/
structure Agrees (g g' : Graph) : Prop where
  nodeCount : g'.nodeCount = g.nodeCount
  edgeCount : g'.edgeCount = g.edgeCount
  nodes : g'.nodes = g.nodes
  edges : g'.edges = g.edges
  entries : g'.adjacency.entries = g.adjacency.entries
  outEdges : ∀ n, g'.outEdges n = g.outEdges n
  successors : ∀ n, g'.successors n = g.successors n
  descendants : ∀ n, g'.descendants n = g.descendants n
  predecessors : ∀ n, (g'.predecessors n).Perm (g.predecessors n)
  inEdges : ∀ n, (g'.inEdges n).Perm (g.inEdges n)
  ancestors : ∀ n, (g'.ancestors n).Perm (g.ancestors n)
  nodeNames : g'.nodeCatalog.names = g.nodeCatalog.names
  /-- names, defaults and explicit values, all in order -/
  nodeProperties : g'.nodeCatalog.toList = g.nodeCatalog.toList
  edgeNames : g'.edgeCatalog.names = g.edgeCatalog.names
  edgeProperties : g'.edgeCatalog.toList = g.edgeCatalog.toList
  attributes : g'.attributes.toList = g.attributes.toList
  /-- also for names and nodes that are not there -/
  nodeValues : ∀ name n, g'.nodeValueByName name n = g.nodeValueByName name n
  edgeValues : ∀ name e, g'.edgeValueByName name e = g.edgeValueByName name e

/-- A graph that is written can be read, whatever identity its handles get, and what
is read agrees with it, is written as the same bytes and reads the same again. -/
def RoundTrips (g : Graph) : Prop :=
  ∀ owner, ∃ g', Snapshot.decode owner (Snapshot.encode g) = .ok g' ∧ g.Agrees g' ∧
    Snapshot.encode g' = Snapshot.encode g ∧
    Snapshot.fingerprint g' = Snapshot.fingerprint g ∧
    ∀ owner', Snapshot.decode owner' (Snapshot.encode g') = .ok (g'.reissued owner')

/-- A graph that is built again looks the same. -/
theorem agrees_rebuilt {g : Graph} {b : Adjacency} (hrebuilt : g.adjacency.Rebuilt b)
    (owner : Identity) : g.Agrees (g.rebuilt b owner) where
  nodeCount := congrArg UInt32.toNat hrebuilt.nodeCount
  edgeCount := hrebuilt.edgeCount
  nodes := congrArg (NodeSpan.mk 0) hrebuilt.nodeCount
  edges := by
    show b.edges = g.adjacency.edges
    rw [Adjacency.edges, hrebuilt.targets]
    rfl
  entries := hrebuilt.entries
  outEdges n := by
    show b.outEdges n = g.adjacency.outEdges n
    rw [Adjacency.outEdges, Adjacency.outEdges, hrebuilt.targets]
  successors n := congrFun hrebuilt.successors n
  descendants := hrebuilt.descendants
  predecessors := hrebuilt.predecessors
  inEdges := hrebuilt.inEdges
  ancestors := hrebuilt.ancestors
  nodeNames := rfl
  nodeProperties := rfl
  edgeNames := rfl
  edgeProperties := rfl
  attributes := rfl
  nodeValues name n := by
    have hnode : (g.rebuilt b owner).hasNode = g.hasNode := hrebuilt.hasNode
    rw [nodeValueByName, nodeValueByName, hnode]
    rfl
  edgeValues name e := by
    have hedge : (g.rebuilt b owner).hasEdge = g.hasEdge := hrebuilt.hasEdge
    rw [edgeValueByName, edgeValueByName, hedge]
    rfl

/-! ## Writing and reading -/

/-- Bytes that were written hold the snapshot that was written. -/
theorem decode_encode {g : Graph} (hsized : (Snapshot.ofGraph g).Sized) (owner : Identity) :
    Snapshot.decode owner (Snapshot.encode g) = (Snapshot.ofGraph g).toGraph owner := by
  unfold Snapshot.decode Snapshot.decodeWith Snapshot.encode Snapshot.encodeWith
  rw [Frame.unwrap_wrap]
  simp only [Payload.read_write hsized]

/-- Well-formed graphs survive being stored. -/
theorem WellFormed.roundTrips {g : Graph} (hwell : g.WellFormed)
    (hsized : (Snapshot.ofGraph g).Sized) : g.RoundTrips := by
  obtain ⟨b, hrebuilt, hmade⟩ := Snapshot.toGraph_ofGraph hwell
  intro owner
  have hsame := Snapshot.ofGraph_rebuilt hrebuilt owner
  have hencode : Snapshot.encode (g.rebuilt b owner) = Snapshot.encode g := by
    unfold Snapshot.encode Snapshot.encodeWith
    rw [hsame]
  have hfingerprint : Snapshot.fingerprint (g.rebuilt b owner) = Snapshot.fingerprint g := by
    unfold Snapshot.fingerprint
    rw [hsame]
  refine ⟨g.rebuilt b owner, ?_, agrees_rebuilt hrebuilt owner, hencode, hfingerprint, ?_⟩
  · rw [decode_encode hsized, hmade]
  · intro owner'
    rw [hencode, decode_encode hsized, hmade]
    rfl

/-- Every graph that a history leads to survives being stored. -/
theorem roundTrips_run {g : Graph} (horigin : g.Origin) (requests : List Request)
    (hsized : (Snapshot.ofGraph (g.run requests)).Sized) : (g.run requests).RoundTrips :=
  (horigin.wellFormed.run requests).roundTrips hsized

/-- A history with parallel edges, a loop, nested values, an attribute, and an edge for which
there is no key. -/
theorem roundTrips_run_of_parts :
    ∃ g, ofParts ⟨0⟩ 2 [(⟨1⟩, ⟨0⟩, 1), (⟨1⟩, ⟨1⟩, 0xFFFFFFFF)]
        [.ofValues "state" .null [(⟨1⟩, .list [.int 5, .text "x"])]] [] .empty = .ok g ∧
      (g.run [.declareEdgeProperty "action" (.labels .empty),
        .addEdgeWith ⟨0⟩ ⟨0⟩ [("action", .int 1)], .addEdge ⟨0⟩ ⟨1⟩, .addEdge ⟨1⟩ ⟨0⟩,
        .addEdge ⟨1⟩ ⟨1⟩, .setAttribute "kind" (.bool true)]).RoundTrips := by
  refine ⟨_, rfl, ?_⟩
  have hmade : ofParts ⟨0⟩ 2 [(⟨1⟩, ⟨0⟩, 1), (⟨1⟩, ⟨1⟩, 0xFFFFFFFF)]
    [.ofValues "state" .null [(⟨1⟩, .list [.int 5, .text "x"])]] [] .empty = .ok _ := rfl
  exact roundTrips_run (.parts hmade) _ (by decide)

end Graph

end StateGraph
