import StateGraph.Graph

set_option autoImplicit false

/-!
# Export

An exported graph spells out the attributes of every node and edge: each declared
property with the explicit value or the default.  Nodes stand at the position of
their number, edges in the order of `Graph.edges`.
-/

namespace StateGraph

/-- A graph whose nodes and edges carry all their attributes. -/
structure Export where
  nodes : List Attributes
  edges : List (EdgeId × Attributes)

/-- The value of every property of a catalog at an element. -/
def Catalog.attributesOf {ε : Type} [DecidableEq ε] (c : Catalog ε) (e : ε) : Attributes :=
  .ofList (c.toList.map fun p => (p.name, p.valueOf e))

/-- Spells out all attributes of a graph. -/
def Graph.toExport (g : Graph) : Export where
  nodes := g.nodes.toList.map g.nodeCatalog.attributesOf
  edges := g.edges.map fun e => (e, g.edgeCatalog.attributesOf e)

end StateGraph
