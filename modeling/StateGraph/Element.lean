set_option autoImplicit false

/-!
# Nodes, edges and their identifiers

Nodes are numbered from 0 in the order of their creation.  An edge is identified
by its endpoints and a key, the ordinal of the edge among those with the same
endpoints.  Identifiers are 32-bit words.
-/

namespace StateGraph

/-- The two kinds of elements that carry properties. -/
inductive ElementKind where
  | node
  | edge
  deriving DecidableEq, Repr

/-- The name of a kind in messages. -/
def ElementKind.name : ElementKind → String
  | .node => "node"
  | .edge => "edge"

/-- A node, given by its number. -/
structure NodeId where
  index : UInt32
  deriving DecidableEq, Repr, Inhabited, Ord

/-- An edge, given by its endpoints and its key. -/
structure EdgeId where
  source : NodeId
  target : NodeId
  key : UInt32
  deriving DecidableEq, Repr, Inhabited, Ord

/-- The readable text of a node. -/
def NodeId.display (n : NodeId) : String := toString n.index.toNat

namespace EdgeId

/-- The readable text of an edge. -/
def display (e : EdgeId) : String :=
  "(" ++ e.source.display ++ ", " ++ e.target.display ++ ", " ++ toString e.key.toNat ++ ")"

/-- Both endpoints, source first. -/
def endpoints (e : EdgeId) : NodeId × NodeId := (e.source, e.target)

/-- Edges in the order of source, target and key. -/
def sort (edges : List EdgeId) : List EdgeId := edges.mergeSort fun a b => (compare a b).isLE

end EdgeId

end StateGraph
