import StateGraph.Fault
import StateGraph.GraphError
import StateGraph.NodeSpan
import StateGraph.OrderedMap

set_option autoImplicit false

/-!
# Adjacency of an append-only multigraph

The edges from one node to another are numbered from 0 without gaps, so all of
them together are given by the highest key.  `targets` files the highest key
under source and target; `sources` is the converse relation, kept for walking
backwards; `edgeCount` is the number of edges.  Nothing is ever removed.

A key is a 32-bit word.  A pair of nodes whose highest key is the largest word has
no room for another edge, and neither the next key nor the number of its edges is
a word.
-/

namespace StateGraph

/-- The nodes and edges of a graph. -/
structure Adjacency where
  nodeCount : UInt32
  edgeCount : Nat
  /-- for each source, the highest key to each of its targets -/
  targets : OrderedMap NodeId (OrderedMap NodeId UInt32)
  /-- for each target, its sources -/
  sources : OrderedMap NodeId (OrderedSet NodeId)

namespace Adjacency

/-- The given number of nodes and no edge. -/
def isolated (nodeCount : UInt32) : Adjacency := ⟨nodeCount, 0, .empty, .empty⟩

/-! ## Nodes -/

/-- Whether a node exists. -/
def hasNode (a : Adjacency) (n : NodeId) : Bool := decide (n.index < a.nodeCount)

/-- All nodes. -/
def nodes (a : Adjacency) : NodeSpan := ⟨0, a.nodeCount⟩

/-- Fails unless a node exists. -/
def requireNode (a : Adjacency) (n : NodeId) : Except GraphError Unit :=
  if a.hasNode n then .ok () else .error (.nodeNotFound n)

/-- Adds nodes with the next numbers.  The node count is a 32-bit word, and must
stay one. -/
def addNodes (a : Adjacency) (count : UInt32) : Except GraphError (Adjacency × NodeSpan) :=
  if a.nodeCount.toNat + count.toNat < UInt32.size then
    .ok ({ a with nodeCount := a.nodeCount + count }, ⟨a.nodeCount, a.nodeCount + count⟩)
  else .error (.nodeNumbersExhausted count a.nodeCount)

/-! ## Edges -/

/-- The highest key from `u` to `v`, if there is an edge. -/
def highestKey (a : Adjacency) (u v : NodeId) : Option UInt32 :=
  (a.targets.get? u).bind fun ts => ts.get? v

/-- Whether an edge exists. -/
def hasEdge (a : Adjacency) (e : EdgeId) : Bool :=
  match a.highestKey e.source e.target with
  | some highest => decide (e.key ≤ highest)
  | none => false

/-- Records `u` as a source of `v`. -/
def addSource (a : Adjacency) (u v : NodeId) : OrderedMap NodeId (OrderedSet NodeId) :=
  a.sources.upsert v fun s => (s.getD .empty).insert u

/-- The key of the next edge from `u` to `v`, if there is a word for it. -/
def nextKey? (a : Adjacency) (u v : NodeId) : Option UInt32 :=
  match a.highestKey u v with
  | some highest => nextWord? highest
  | none => some 0

/-- Adds an edge between nodes that exist, with the next key, if there is one. -/
def link (a : Adjacency) (u v : NodeId) : Option (Adjacency × UInt32) := do
  let key ← a.nextKey? u v
  return ({ a with
      edgeCount := a.edgeCount + 1
      targets := a.targets.upsert u fun ts => (ts.getD .empty).insert v key
      sources := a.addSource u v }, key)

/-- Adds all edges from `u` to `v` at once, given the highest key. -/
def addEntry (a : Adjacency) (u v : NodeId) (highest : UInt32) : Except GraphError Adjacency :=
  if a.hasNode u && a.hasNode v then
    if (a.highestKey u v).isSome then .error (.adjacencyRepeated u v)
    else .ok { a with
      edgeCount := a.edgeCount + (highest.toNat + 1)
      targets := a.targets.upsert u fun ts => (ts.getD .empty).insert v highest
      sources := a.addSource u v }
  else .error (.adjacencyOutside u v)

/-- The adjacency with the given entries `(source, target, highest key)`. -/
def ofEntries (nodeCount : UInt32) (entries : List (NodeId × NodeId × UInt32)) :
    Except GraphError Adjacency :=
  entries.foldlM (fun a (u, v, highest) => a.addEntry u v highest) (isolated nodeCount)

/-! ## Views -/

/-- The keys `0, …, highest`. -/
def keysUpTo (highest : UInt32) : List UInt32 :=
  (List.range (highest.toNat + 1)).map Nat.toUInt32

/-- The edges from a source with the given targets, by target and key. -/
def edgesTo (u : NodeId) (ts : OrderedMap NodeId UInt32) : List EdgeId :=
  ts.toList.flatMap fun (v, highest) => (keysUpTo highest).map fun k => ⟨u, v, k⟩

/-- All edges, by source, target and key. -/
def edges (a : Adjacency) : List EdgeId := a.targets.toList.flatMap fun (u, ts) => edgesTo u ts

/-- Every connected pair with its highest key, by source and target. -/
def entries (a : Adjacency) : List (NodeId × NodeId × UInt32) :=
  a.targets.toList.flatMap fun (u, ts) => ts.toList.map fun (v, highest) => (u, v, highest)

/-- The direct successors of a node, each once. -/
def successors (a : Adjacency) (n : NodeId) : List NodeId :=
  match a.targets.get? n with
  | some ts => ts.keys
  | none => []

/-- The direct predecessors of a node, each once. -/
def predecessors (a : Adjacency) (n : NodeId) : List NodeId :=
  match a.sources.get? n with
  | some s => s.toList
  | none => []

/-- The edges that start at a node. -/
def outEdges (a : Adjacency) (n : NodeId) : List EdgeId :=
  match a.targets.get? n with
  | some ts => edgesTo n ts
  | none => []

/-- The edges that end at a node. -/
def inEdges (a : Adjacency) (n : NodeId) : List EdgeId :=
  (a.predecessors n).flatMap fun u =>
    (keysUpTo ((a.highestKey u n).getD 0)).map fun k => ⟨u, n, k⟩

/-- Number of edges from `u` to `v`, if it is a word. -/
def multiplicity (a : Adjacency) (u v : NodeId) : Option UInt32 :=
  match a.highestKey u v with
  | some highest => nextWord? highest
  | none => some 0

end Adjacency

end StateGraph
