import StateGraph.Graph.Parts
import StateGraph.Snapshot.Error

set_option autoImplicit false

/-!
# Snapshots

A snapshot is a graph as it is stored: counts, the highest keys grouped by
source, every property with its explicit values, and the attributes of the graph.
The predecessors of a node are not stored; they follow from the rest.

A snapshot may come from anywhere.  `Snapshot.toGraph` accepts it only if it is
of the right kind, refers to existing elements only, names no pair of nodes twice
and counts its edges correctly; names and elements that are repeated within a
list of properties or values are merged.
-/

namespace StateGraph

/-- A property as it is stored. -/
structure StoredProperty (ε : Type) where
  name : String
  default : Value
  values : List (ε × Value)
  deriving DecidableEq

/-- A graph as it is stored. -/
structure Snapshot where
  kind : String
  nodeCount : UInt32
  edgeCount : UInt64
  /-- for each source, its targets with their highest keys -/
  groups : List (NodeId × List (NodeId × UInt32))
  nodeProperties : List (StoredProperty NodeId)
  edgeProperties : List (StoredProperty EdgeId)
  attributes : List (String × Value)
  deriving DecidableEq

namespace StoredProperty

variable {ε : Type}

/-- The stored form of a property. -/
def ofProperty (p : Property ε) : StoredProperty ε := ⟨p.name, p.default, p.explicit⟩

/-- The property that is stored. -/
def toProperty [DecidableEq ε] (p : StoredProperty ε) : Property ε :=
  .ofValues p.name p.default p.values

end StoredProperty

namespace Snapshot

/-- The kind of structure that snapshots hold. -/
def graphKind : String := "multidigraph"

/-- Groups adjacency entries by their source, in the order of first occurrence. -/
def groupEntries (entries : List (NodeId × NodeId × UInt32)) :
    OrderedMap NodeId (List (NodeId × UInt32)) :=
  entries.foldl (fun m (u, v, highest) => m.upsert u fun ts => ts.getD [] ++ [(v, highest)]) .empty

/-- The snapshot of a graph. -/
def ofGraph (g : Graph) : Snapshot where
  kind := graphKind
  nodeCount := g.adjacency.nodeCount
  edgeCount := g.edgeCount.toUInt64
  groups := (groupEntries g.adjacency.entries).toList
  nodeProperties := g.nodeCatalog.toList.map .ofProperty
  edgeProperties := g.edgeCatalog.toList.map .ofProperty
  attributes := g.attributes.toList

/-- The adjacency entries of a snapshot. -/
def entries (s : Snapshot) : List (NodeId × NodeId × UInt32) :=
  s.groups.flatMap fun (u, ts) => ts.map fun (v, highest) => (u, v, highest)

/-- The graph that is stored, with handles of the given identity. -/
def toGraph (owner : Identity) (s : Snapshot) : Except SnapshotError Graph :=
  if s.kind ≠ graphKind then .error (.wrongKind s.kind)
  else
    match Graph.ofParts owner s.nodeCount s.entries (s.nodeProperties.map (·.toProperty))
        (s.edgeProperties.map (·.toProperty)) (.ofList s.attributes) with
    | .error e => .error (.reconstruction e)
    | .ok g =>
      if g.edgeCount.toUInt64 ≠ s.edgeCount then
        .error (.edgeCountMismatch s.edgeCount g.edgeCount)
      else .ok g

end Snapshot

end StateGraph
