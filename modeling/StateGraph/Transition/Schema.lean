import StateGraph.Graph
import StateGraph.Transition.Error

set_option autoImplicit false

/-!
# The properties of a compiled graph

Nodes carry the state, the turn if states belong to players, and the label if
there are propositions; edges carry the action, and the probability if there are
distributions.  These names are reserved.  A generator may declare further
properties under other names, which come after the reserved ones.
-/

namespace StateGraph

/-- The properties of the nodes and edges of a compiled graph, with their
defaults. -/
structure Schema where
  node : Attributes
  edge : Attributes
  deriving DecidableEq

/-- The handles of the reserved properties. -/
structure SchemaHandles where
  state : Handle NodeId
  turn : Option (Handle NodeId)
  label : Option (Handle NodeId)
  action : Handle EdgeId
  prob : Option (Handle EdgeId)
  deriving DecidableEq

namespace Schema

/-- The node property that holds the state. -/
def stateName : String := "state"

/-- The node property that holds the player whose turn it is. -/
def turnName : String := "turn"

/-- The node property that holds the propositions of the state. -/
def labelName : String := "label"

/-- The edge property that holds the action. -/
def actionName : String := "action"

/-- The edge property that holds the probability. -/
def probName : String := "prob"

/-- The names that further properties must not have. -/
def reserved : List String := [stateName, turnName, labelName, actionName, probName]

/-- Whether a name is reserved. -/
def isReserved (name : String) : Bool := decide (name ∈ reserved)

/-- Fails if reserved names are declared; all of them are reported. -/
def rejectReserved (scope : Scope) (declared : Attributes) : Except CompileError Unit :=
  match declared.keys.filter isReserved with
  | [] => .ok ()
  | names => .error (.nameConflict scope names)

/-- The properties of the nodes of a compiled graph. -/
def nodeProperties (turnBased : Bool) (atoms : Option LabelSet) (further : Attributes) :
    Attributes :=
  let reserved := [(stateName, Value.null)] ++
    (if turnBased then [(turnName, .int (-1))] else []) ++
    (if atoms.any fun set => !set.isEmpty then [(labelName, .labels .empty)] else [])
  (OrderedMap.ofList reserved).insertMany further.toList

/-- The properties of the edges of a compiled graph. -/
def edgeProperties (branching : Branching) (further : Attributes) : Attributes :=
  let reserved := [(actionName, Value.null)] ++
    (if branching.isWeighted then [(probName, .int (-1))] else [])
  (OrderedMap.ofList reserved).insertMany further.toList

/-- The schema of a generator; the declarations of states are looked at before
those of transitions. -/
def plan (branching : Branching) (turnBased : Bool) (atoms : Option LabelSet)
    (stateProperties transitionProperties : Attributes) : Except CompileError Schema := do
  rejectReserved .state stateProperties
  rejectReserved .transition transitionProperties
  return ⟨nodeProperties turnBased atoms stateProperties,
    edgeProperties branching transitionProperties⟩

/-- Whether a name is that of a further node property. -/
def isFurtherNode (s : Schema) (name : String) : Bool := !isReserved name && s.node.contains name

/-- Whether a name is that of a further edge property. -/
def isFurtherEdge (s : Schema) (name : String) : Bool := !isReserved name && s.edge.contains name

/-- Declares all properties on a graph. -/
def declareAll (s : Schema) (g : Graph) : Graph :=
  let g := s.node.toList.foldl (fun g (name, default) => (g.declareNodeProperty name default).1) g
  s.edge.toList.foldl (fun g (name, default) => (g.declareEdgeProperty name default).1) g

/-- Declares all properties on a graph and takes the handles of the reserved
ones.  A property that the graph has already keeps its place and default, and
its handle is taken too. -/
def apply (s : Schema) (g : Graph) : Graph × SchemaHandles :=
  let g := s.declareAll g
  let (g, state) := g.declareNodeProperty stateName .null
  let turn := g.nodeHandle? turnName
  let label := g.nodeHandle? labelName
  let (g, action) := g.declareEdgeProperty actionName .null
  (g, ⟨state, turn, label, action, g.edgeHandle? probName⟩)

end Schema

end StateGraph
