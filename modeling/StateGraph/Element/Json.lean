import StateGraph.Element
import StateGraph.Json.Reader

set_option autoImplicit false

/-!
# Identifiers as JSON

A node is written as its number, an edge as an object.  An edge may also be read
from an array of its three parts; in an object other members are ignored, and
each of the three must be there once.
-/

namespace StateGraph

namespace NodeId

/-- The document of a node. -/
def toJson (n : NodeId) : Json := .int n.index.toNat

/-- The node that a document stands for. -/
def ofTree? (t : JsonTree) : Option NodeId := t.uint32?.map NodeId.mk

/-- Reads a node from a text. -/
def ofJson? (text : String) : Option NodeId := do ofTree? (← JsonTree.read? text)

end NodeId

namespace EdgeId

/-- The document of an edge. -/
def toJson (e : EdgeId) : Json :=
  .object [("source", e.source.toJson), ("target", e.target.toJson), ("key", .int e.key.toNat)]

/-- The edge that a document stands for. -/
def ofTree? : JsonTree → Option EdgeId
  | .array [u, v, k] => do
    return ⟨← NodeId.ofTree? u, ← NodeId.ofTree? v, ← k.uint32?⟩
  | .object members => do
    let members ← (JsonTree.object members).members?
    let u ← JsonTree.field? "source" members
    let v ← JsonTree.field? "target" members
    let k ← JsonTree.field? "key" members
    return ⟨← NodeId.ofTree? (← u), ← NodeId.ofTree? (← v), ← (← k).uint32?⟩
  | _ => none

/-- Reads an edge from a text. -/
def ofJson? (text : String) : Option EdgeId := do ofTree? (← JsonTree.read? text)

end EdgeId

end StateGraph
