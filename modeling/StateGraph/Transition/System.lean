import StateGraph.Transition.Options
import StateGraph.Transition.Schema
import StateGraph.Value.Conversion

set_option autoImplicit false

/-!
# Transition systems

A transition system is a graph whose nodes are states and whose edges are
transitions, together with the index of its states and what the graph alone does
not say: the actions in their order, the propositions, and the kind of branching.
This is also written into attributes of the graph, so that a graph is all that
has to be stored.
-/

namespace StateGraph

/-- A compiled transition system over states `σ` and actions `α`. -/
structure TransitionSystem (σ α : Type) where
  graph : Graph
  /-- the states in the order of their nodes -/
  states : OrderedMap σ NodeId
  actions : List α
  /-- the propositions, if states are labelled -/
  atoms : Option LabelSet
  branching : Branching
  turnBased : Bool

/-- A transition as read from the graph. -/
structure Transition where
  edge : EdgeId
  action : Value
  /-- present only in systems with distributions -/
  probability : Option Binary64
  deriving DecidableEq

/-- The state that a transition leads to. -/
def Transition.target (t : Transition) : NodeId := t.edge.target

/-- The key of the edge of a transition. -/
def Transition.key (t : Transition) : UInt32 := t.edge.key

namespace TransitionSystem

/-! ## Attributes of the graph -/

/-- The attribute that holds the kind of branching. -/
def kindName : String := "kind"

/-- The attribute that says whether states belong to players. -/
def turnBasedName : String := "turn_based"

/-- The attribute that holds the actions. -/
def actionsName : String := "actions"

/-- The attribute that holds the propositions. -/
def atomsName : String := "atoms"

variable {σ α : Type}

/-- The attribute value of propositions; null if there are none. -/
def atomsValue : Option LabelSet → Value
  | some atoms => .labels atoms
  | none => .null

/-- Puts a system together and writes its attributes into the graph. -/
def assemble [ToValue α] (graph : Graph) (states : OrderedMap σ NodeId) (actions : List α)
    (atoms : Option LabelSet) (branching : Branching) (turnBased : Bool) :
    TransitionSystem σ α :=
  let attributes := graph.attributes.insertMany [(kindName, .text branching.name),
    (turnBasedName, .bool turnBased), (actionsName, .list (actions.map toValue)),
    (atomsName, atomsValue atoms)]
  ⟨{ graph with attributes := attributes }, states, actions, atoms, branching, turnBased⟩

/-! ## States -/

/-- Number of states. -/
def size (t : TransitionSystem σ α) : Nat := t.states.size

/-- The node of a state. -/
def nodeOf? [DecidableEq σ] (t : TransitionSystem σ α) (s : σ) : Option NodeId := t.states.get? s

/-- The state of a node: the one that stands at its position. -/
def stateOf? (t : TransitionSystem σ α) (n : NodeId) : Option σ :=
  (t.states.entryAt? n.index.toNat).map Prod.fst

/-- The propositions that hold in a state, if states are labelled. -/
def labels (t : TransitionSystem σ α) (n : NodeId) : Except GraphError (Option LabelSet) :=
  if t.graph.nodeCatalog.contains Schema.labelName then
    (t.graph.nodeValueByName Schema.labelName n).map Value.asLabels?
  else (t.graph.adjacency.requireNode n).map fun _ => none

/-! ## Transitions -/

/-- The probability in a value: a number that is at least 0. -/
def probability? (v : Value) : Option Binary64 := v.asFloat?.filter Binary64.zero.le

/-- The transition of an edge, given the property that holds the action and, in
systems with distributions, the one that holds the probability. -/
def transitionOf (action : Property EdgeId) (prob : Option (Property EdgeId)) (e : EdgeId) :
    Transition :=
  ⟨e, action.valueOf e, prob.bind fun p => probability? (p.valueOf e)⟩

/-- The property that holds the probabilities of a system with distributions. -/
def probProperty (t : TransitionSystem σ α) : Except GraphError (Option (Property EdgeId)) :=
  if t.branching.isWeighted then (t.graph.edgeCatalog.byName Schema.probName).map some else .ok none

/-- The transitions from a node, grouped by their targets.  The properties that
transitions are read from are needed only if there are any. -/
def transitions (t : TransitionSystem σ α) (n : NodeId) : Except GraphError (List Transition) := do
  t.graph.adjacency.requireNode n
  if (t.graph.successors n).isEmpty then return []
  let action ← t.graph.edgeCatalog.byName Schema.actionName
  let prob ← t.probProperty
  return (t.graph.outEdges n).map (transitionOf action prob)

/-- The actions with at least one transition from a node, in the order of all
actions. -/
def enabledActions [ToValue α] (t : TransitionSystem σ α) (n : NodeId) :
    Except GraphError (List α) := do
  let used := (← t.transitions n).map (·.action)
  return t.actions.filter fun a => decide (toValue a ∈ used)

/-! ## Checking distributions -/

/-- The probabilities of each action among transitions, actions in the order of
their first transition.  A missing probability counts as not a number. -/
def probabilitiesByAction (ts : List Transition) : OrderedMap Value (List Binary64) :=
  ts.foldl (fun m t => m.upsert t.action fun ps => ps.getD [] ++ [t.probability.getD .nan]) .empty

/-- The text of a node in messages: its state if that is known. -/
def describe (t : TransitionSystem σ α) (n : NodeId) : String :=
  match t.graph.nodeValueByName Schema.stateName n with
  | .ok state => state.display
  | .error _ => n.display

/-- Fails if the probabilities of an action in a node are not a distribution. -/
def checkAction (t : TransitionSystem σ α) (options : CompileOptions) (n : NodeId)
    (group : Value × List Binary64) : Except CompileError Unit :=
  match Distribution.check group.2 options.tolerance with
  | .ok () => .ok ()
  | .error fault => .error (.invalidDistribution (t.describe n) group.1.display fault)

/-- Fails if an action in a node does not have a distribution. -/
def checkNode (t : TransitionSystem σ α) (options : CompileOptions) (n : NodeId) :
    Except CompileError Unit :=
  match t.transitions n with
  | .error e => .error (.graph e)
  | .ok ts => (probabilitiesByAction ts).toList.forM (t.checkAction options n)

/-- Fails if a state with an action does not have a distribution; systems
without distributions pass. -/
def checkDistributions (t : TransitionSystem σ α) (options : CompileOptions) :
    Except CompileError Unit := do
  options.validate
  if t.branching.isWeighted then t.graph.nodes.forM (t.checkNode options)

/-! ## Text -/

/-- The readable summary of a system. -/
def display (t : TransitionSystem σ α) : String :=
  "<" ++ t.branching.name ++ " TransitionGraph with |S|=" ++ toString t.states.size ++ ", |A|=" ++
    toString t.actions.length ++ ", |E|=" ++ toString t.graph.edgeCount ++ ">"

end TransitionSystem

end StateGraph
