import StateGraph.Graph

set_option autoImplicit false

/-!
# Building a graph at once

A graph can be built from its node count, its adjacency entries and its
properties, as they are found in a file.  The entries need not come from a graph:
each is checked, and so is every explicit value, also those of a property that a
later one of the same name replaces.
-/

namespace StateGraph

/-- Files properties one after another; each must have its explicit values on
elements that exist. -/
def Catalog.fileAll {ε : Type} (exists? : ε → Bool) (missing : String → ε → GraphError)
    (c : Catalog ε) : List (Property ε) → Except GraphError (Catalog ε)
  | [] => .ok c
  | p :: rest =>
    match p.explicit.find? fun (e, _) => !exists? e with
    | some (e, _) => .error (missing p.name e)
    | none => (c.file p).1.fileAll exists? missing rest

/-- The graph with the given parts. -/
def Graph.ofParts (owner : Identity) (nodeCount : UInt32)
    (entries : List (NodeId × NodeId × UInt32)) (nodeProperties : List (Property NodeId))
    (edgeProperties : List (Property EdgeId)) (attributes : Attributes) :
    Except GraphError Graph := do
  let adjacency ← Adjacency.ofEntries nodeCount entries
  let nodeCatalog ← (Catalog.empty owner).fileAll adjacency.hasNode .valueOnMissingNode
    nodeProperties
  let edgeCatalog ← (Catalog.empty owner).fileAll adjacency.hasEdge .valueOnMissingEdge
    edgeProperties
  return ⟨adjacency, nodeCatalog, edgeCatalog, attributes⟩

end StateGraph
