import StateGraph.Transition.System

set_option autoImplicit false

/-!
# Reopening

A graph that was compiled, stored and restored becomes a transition system again.
Its attributes say what the graph alone does not, and its nodes must hold
different states.  States and actions come back as values.
-/

namespace StateGraph

namespace TransitionSystem

/-- Fails because of what an attribute or a property says. -/
def refuse {β : Type} (fault : MetadataFault) : Except CompileError β :=
  .error (.missingMetadata fault)

/-- The kind of branching of a compiled graph. -/
def readBranching (g : Graph) : Except CompileError Branching :=
  match (g.attribute? kindName).bind Value.asText? with
  | none => refuse (.missing kindName)
  | some name =>
    match Branching.ofName? name with
    | none => refuse (.unknownKind name)
    | some b => .ok b

/-- Whether the states of a compiled graph belong to players. -/
def readTurnBased (g : Graph) : Except CompileError Bool :=
  match (g.attribute? turnBasedName).bind Value.asBool? with
  | none => refuse (.missing turnBasedName)
  | some b => .ok b

/-- The actions of a compiled graph. -/
def readActions (g : Graph) : Except CompileError (List Value) :=
  match (g.attribute? actionsName).bind Value.asList? with
  | none => refuse (.missing actionsName)
  | some items => .ok items

/-- The propositions of a compiled graph. -/
def readAtoms (g : Graph) : Except CompileError (Option LabelSet) :=
  match g.attribute? atomsName with
  | some (.labels atoms) => .ok (some atoms)
  | some .null => .ok none
  | none => .ok none
  | some other => refuse (.notLabels atomsName other)

/-- Adds a node to the index of states, unless its state is there already. -/
def addNode (g : Graph) (state : Handle NodeId) (index : OrderedMap Value NodeId) (n : NodeId) :
    Except CompileError (OrderedMap Value NodeId) :=
  match g.nodeValue state n with
  | .error e => .error (.graph e)
  | .ok v =>
    if index.contains v then .error (.duplicateState v.display) else .ok (index.insert v n)

/-- The index of the states of a compiled graph. -/
def readStates (g : Graph) : Except CompileError (OrderedMap Value NodeId) :=
  match g.nodeHandle? Schema.stateName with
  | none => refuse (.noNodeProperty Schema.stateName)
  | some state => g.nodes.foldlM (addNode g state) .empty

/-- Makes a transition system of a graph that was compiled. -/
def ofGraph (g : Graph) : Except CompileError (TransitionSystem Value Value) := do
  let branching ← readBranching g
  let turnBased ← readTurnBased g
  let actions ← readActions g
  let atoms ← readAtoms g
  let states ← readStates g
  return ⟨g, states, actions, atoms, branching, turnBased⟩

end TransitionSystem

end StateGraph
