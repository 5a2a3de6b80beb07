import StateGraph.Adjacency.Reach
import StateGraph.Catalog

set_option autoImplicit false

/-!
# Attributed multigraphs

A graph joins an adjacency with the properties of its nodes and edges and with
attributes of its own.  Nodes and edges are only ever added.  A request either
yields a new graph or fails, and a request that fails has no effect.  Where edges are
counted, the count can overflow, which is a `Fault` of its own.

Values that are given along with a new element are written under the names that
are declared at that moment; other names are passed over.
-/

namespace StateGraph

/-- A directed multigraph with attributes. -/
structure Graph where
  adjacency : Adjacency
  nodeCatalog : Catalog NodeId
  edgeCatalog : Catalog EdgeId
  attributes : Attributes

namespace Graph

/-- The graph without nodes and declarations, whose handles carry the given
identity. -/
def empty (owner : Identity) : Graph := ⟨.isolated 0, .empty owner, .empty owner, .empty⟩

/-! ## Nodes -/

/-- Whether a node exists. -/
def hasNode (g : Graph) (n : NodeId) : Bool := g.adjacency.hasNode n

/-- All nodes. -/
def nodes (g : Graph) : NodeSpan := g.adjacency.nodes

/-- Number of nodes. -/
def nodeCount (g : Graph) : Nat := g.adjacency.nodeCount.toNat

/-- Adds one node. -/
def addNode (g : Graph) : Except GraphError (Graph × NodeId) := do
  let (a, span) ← g.adjacency.addNodes 1
  return ({ g with adjacency := a }, ⟨span.start⟩)

/-- Writes values on a node that was just created. -/
def putNodeValues (g : Graph) (n : NodeId) (values : List (String × Value)) : Graph :=
  { g with nodeCatalog := g.nodeCatalog.putMany n values }

/-- Adds one node with values. -/
def addNodeWith (g : Graph) (values : List (String × Value)) :
    Except GraphError (Graph × NodeId) := do
  let (g, n) ← g.addNode
  return (g.putNodeValues n values, n)

/-- Adds several nodes, at least one. -/
def addNodes (g : Graph) (count : UInt32) : Except GraphError (Graph × NodeSpan) := do
  if count = 0 then throw .noNodes
  let (a, span) ← g.adjacency.addNodes count
  return ({ g with adjacency := a }, span)

/-- Adds one node for each list of values, at least one. -/
def addNodesWith (g : Graph) (lists : List (List (String × Value))) :
    Except GraphError (Graph × NodeSpan) := do
  if UInt32.size ≤ lists.length then throw (.tooManyNodeLists lists.length)
  let (g, span) ← g.addNodes lists.length.toUInt32
  return ((span.toList.zip lists).foldl (fun g (n, values) => g.putNodeValues n values) g, span)

/-- Nodes are never removed. -/
def removeNode (_g : Graph) (_n : NodeId) : Except GraphError Graph := .error (.removal .node)

/-! ## Edges -/

/-- Whether an edge exists. -/
def hasEdge (g : Graph) (e : EdgeId) : Bool := g.adjacency.hasEdge e

/-- Whether there is an edge from `u` to `v`. -/
def hasEdgeBetween (g : Graph) (u v : NodeId) : Bool := (g.adjacency.highestKey u v).isSome

/-- Number of edges from `u` to `v`; there is no result if it is not a 32-bit word, and
the program stops. -/
def multiplicity (g : Graph) (u v : NodeId) : Option UInt32 := g.adjacency.multiplicity u v

/-- All edges, by source, target and key. -/
def edges (g : Graph) : List EdgeId := g.adjacency.edges

/-- Number of edges. -/
def edgeCount (g : Graph) : Nat := g.adjacency.edgeCount

/-- Number of nodes and edges together. -/
def size (g : Graph) : Nat := g.nodeCount + g.edgeCount

/-- Fails unless both endpoints exist; the source is looked at first. -/
def requireEndpoints (g : Graph) (u v : NodeId) : Except GraphError Unit := do
  g.adjacency.requireNode u
  g.adjacency.requireNode v

/-- Adds an edge. -/
def addEdge (g : Graph) (u v : NodeId) : Except (Fault GraphError) (Graph × EdgeId) := do
  Fault.lift (g.requireEndpoints u v)
  let (a, key) ← Fault.checked (g.adjacency.link u v)
  return ({ g with adjacency := a }, ⟨u, v, key⟩)

/-- Adds an edge with values. -/
def addEdgeWith (g : Graph) (u v : NodeId) (values : List (String × Value)) :
    Except (Fault GraphError) (Graph × EdgeId) := do
  let (g, e) ← g.addEdge u v
  return ({ g with edgeCatalog := g.edgeCatalog.putMany e values }, e)

/-- Adds edges with values, one after another. -/
def addEdgesInOrder (g : Graph) :
    List (NodeId × NodeId × List (String × Value)) →
      Except (Fault GraphError) (Graph × List EdgeId)
  | [] => .ok (g, [])
  | (u, v, values) :: rest => do
    let (g, e) ← g.addEdgeWith u v values
    let (g, es) ← g.addEdgesInOrder rest
    return (g, e :: es)

/-- Adds several edges with values, or none: all endpoints are looked at before
the first edge is added. -/
def addEdges (g : Graph) (list : List (NodeId × NodeId × List (String × Value))) :
    Except (Fault GraphError) (Graph × List EdgeId) := do
  Fault.lift (list.forM fun (u, v, _) => g.requireEndpoints u v)
  g.addEdgesInOrder list

/-- Edges are never removed. -/
def removeEdge (_g : Graph) (_e : EdgeId) : Except GraphError Graph := .error (.removal .edge)

/-! ## Neighbourhoods -/

/-- The direct successors of a node. -/
def successors (g : Graph) (n : NodeId) : List NodeId := g.adjacency.successors n

/-- The direct predecessors of a node. -/
def predecessors (g : Graph) (n : NodeId) : List NodeId := g.adjacency.predecessors n

/-- The successors and then the predecessors of a node. -/
def neighbors (g : Graph) (n : NodeId) : List NodeId := g.successors n ++ g.predecessors n

/-- The nodes that a path leads to from a node. -/
def descendants (g : Graph) (n : NodeId) : List NodeId := g.adjacency.descendants n

/-- The nodes from which a path leads to a node. -/
def ancestors (g : Graph) (n : NodeId) : List NodeId := g.adjacency.ancestors n

/-- The edges that end at a node. -/
def inEdges (g : Graph) (n : NodeId) : List EdgeId := g.adjacency.inEdges n

/-- The edges that start at a node. -/
def outEdges (g : Graph) (n : NodeId) : List EdgeId := g.adjacency.outEdges n

/-! ## Node properties -/

/-- Declares a node property, unless its name is declared already. -/
def declareNodeProperty (g : Graph) (name : String) (default : Value) : Graph × Handle NodeId :=
  let (c, h) := g.nodeCatalog.declare name default
  ({ g with nodeCatalog := c }, h)

/-- The handle of a node property. -/
def nodeHandle? (g : Graph) (name : String) : Option (Handle NodeId) := g.nodeCatalog.handle? name

/-- Reads a node property through its handle. -/
def nodeValue (g : Graph) (h : Handle NodeId) (n : NodeId) : Except GraphError Value :=
  g.nodeCatalog.read g.hasNode h n

/-- Reads a node property by its name. -/
def nodeValueByName (g : Graph) (name : String) (n : NodeId) : Except GraphError Value :=
  g.nodeCatalog.readByName g.hasNode name n

/-- Writes a node property through its handle. -/
def setNodeValue (g : Graph) (h : Handle NodeId) (n : NodeId) (v : Value) :
    Except GraphError Graph := do
  let (c, _) ← g.nodeCatalog.write g.hasNode h n v
  return { g with nodeCatalog := c }

/-- Writes a node property by its name. -/
def setNodeValueByName (g : Graph) (name : String) (n : NodeId) (v : Value) :
    Except GraphError Graph := do
  let (c, _) ← g.nodeCatalog.writeByName g.hasNode name n v
  return { g with nodeCatalog := c }

/-! ## Edge properties -/

/-- Declares an edge property, unless its name is declared already. -/
def declareEdgeProperty (g : Graph) (name : String) (default : Value) : Graph × Handle EdgeId :=
  let (c, h) := g.edgeCatalog.declare name default
  ({ g with edgeCatalog := c }, h)

/-- The handle of an edge property. -/
def edgeHandle? (g : Graph) (name : String) : Option (Handle EdgeId) := g.edgeCatalog.handle? name

/-- Reads an edge property through its handle. -/
def edgeValue (g : Graph) (h : Handle EdgeId) (e : EdgeId) : Except GraphError Value :=
  g.edgeCatalog.read g.hasEdge h e

/-- Reads an edge property by its name. -/
def edgeValueByName (g : Graph) (name : String) (e : EdgeId) : Except GraphError Value :=
  g.edgeCatalog.readByName g.hasEdge name e

/-- Writes an edge property through its handle. -/
def setEdgeValue (g : Graph) (h : Handle EdgeId) (e : EdgeId) (v : Value) :
    Except GraphError Graph := do
  let (c, _) ← g.edgeCatalog.write g.hasEdge h e v
  return { g with edgeCatalog := c }

/-- Writes an edge property by its name. -/
def setEdgeValueByName (g : Graph) (name : String) (e : EdgeId) (v : Value) :
    Except GraphError Graph := do
  let (c, _) ← g.edgeCatalog.writeByName g.hasEdge name e v
  return { g with edgeCatalog := c }

/-! ## Attributes of the graph -/

/-- An attribute of the graph. -/
def attribute? (g : Graph) (name : String) : Option Value := g.attributes.get? name

/-- Writes an attribute of the graph; returns the value that was there. -/
def setAttribute (g : Graph) (name : String) (v : Value) : Graph × Option Value :=
  ({ g with attributes := g.attributes.insert name v }, g.attribute? name)

/-! ## Text -/

/-- The readable summary of a graph. -/
def display (g : Graph) : String :=
  "<Graph with |V|=" ++ toString g.nodeCount ++ ", |E|=" ++ toString g.edgeCount ++ ">"

end Graph

end StateGraph
