import StateGraph.Element

set_option autoImplicit false

/-!
# What can be wrong with a request to a graph

Each constructor is one cause; the wording is in `GraphError.message` alone.
-/

namespace StateGraph

/-- Why a graph refuses a request. -/
inductive GraphError where
  /-- the node does not exist -/
  | nodeNotFound (node : NodeId)
  /-- a property was asked of a node that does not exist -/
  | nodeMembership (property : String) (node : NodeId)
  /-- a property was asked of an edge that does not exist -/
  | edgeMembership (property : String) (edge : EdgeId)
  /-- no property has this name -/
  | unknownName (kind : ElementKind) (name : String)
  /-- the handle was not issued for this catalog, or not for a property it has -/
  | unknownHandle (kind : ElementKind) (index : Nat)
  /-- elements cannot be removed -/
  | removal (kind : ElementKind)
  /-- a request for no nodes at all -/
  | noNodes
  /-- the node numbers would run out -/
  | nodeNumbersExhausted (count start : UInt32)
  /-- more lists of values than there are node numbers -/
  | tooManyNodeLists (count : Nat)
  /-- a size above the largest integer value -/
  | sizeOutOfRange (size : UInt64)
  /-- an adjacency entry with an endpoint that does not exist -/
  | adjacencyOutside (source target : NodeId)
  /-- a second adjacency entry for the same endpoints -/
  | adjacencyRepeated (source target : NodeId)
  /-- an explicit value on a node that does not exist -/
  | valueOnMissingNode (property : String) (node : NodeId)
  /-- an explicit value on an edge that does not exist -/
  | valueOnMissingEdge (property : String) (edge : EdgeId)
  deriving DecidableEq, Repr

namespace GraphError

/-- Whether the error says that a property was asked of a missing element. -/
def isMembership : GraphError → Bool
  | .nodeMembership .. => true
  | .edgeMembership .. => true
  | _ => false

/-- The text of an error. -/
def message : GraphError → String
  | .nodeNotFound n => "node not found: NodeId(" ++ n.display ++ ")"
  | .nodeMembership p n => "node property '" ++ p ++ "': graph does not contain node " ++ n.display
  | .edgeMembership p e => "edge property '" ++ p ++ "': graph does not contain edge " ++ e.display
  | .unknownName kind name => "unknown " ++ kind.name ++ " property: '" ++ name ++ "'"
  | .unknownHandle kind index => "unknown " ++ kind.name ++ " property: '#" ++ toString index ++ "'"
  | .removal kind =>
    "unsupported operation: " ++ kind.name ++ " removal; use a filtering view instead"
  | .noNodes => "invalid argument: add_nodes expects count >= 1, received 0"
  | .nodeNumbersExhausted count start =>
    "invalid argument: adding " ++ toString count.toNat ++ " nodes to " ++ toString start.toNat ++
      " exceeds the node id space"
  | .tooManyNodeLists count =>
    "invalid argument: " ++ toString count ++ " node lists exceed the node id space"
  | .sizeOutOfRange size =>
    "invalid argument: " ++ toString size.toNat ++ " does not fit in a 64-bit signed integer"
  | .adjacencyOutside u v =>
    "graph inconsistency: adjacency entry (" ++ u.display ++ ", " ++ v.display ++
      ") outside node range"
  | .adjacencyRepeated u v =>
    "graph inconsistency: duplicate adjacency entry (" ++ u.display ++ ", " ++ v.display ++ ")"
  | .valueOnMissingNode p n =>
    "graph inconsistency: node property '" ++ p ++ "' set on missing node " ++ n.display
  | .valueOnMissingEdge p e =>
    "graph inconsistency: edge property '" ++ p ++ "' set on missing edge " ++ e.display

end GraphError

end StateGraph
