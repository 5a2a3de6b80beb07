import StateGraph.Transition.System

set_option autoImplicit false

/-!
# Compilation

A generator is compiled in steps: the options and the schema are looked at, each
state gets a node, each state and action get the edges of its successors, and
states are labelled.  What an action leads to is asked once, and all of its
successors are looked up before the first of its edges is added.  The first fault
ends the compilation; a state that gets more edges to another one than there are keys
is an overflow.
-/

namespace StateGraph

/-- A request to a graph as a step of a compilation. -/
def CompileError.ofGraph {β : Type} (x : Except GraphError β) : Except CompileError β :=
  x.mapError .graph

namespace Generator

variable {σ α : Type}

/-! ## States -/

section States

variable [DecidableEq σ] [ToValue σ] [Shown σ]

/-- Writes the attributes of a state that belong to further properties. -/
def writeStateAttributes (schema : Schema) (n : NodeId) (g : Graph) (values : Attributes) :
    Except GraphError Graph :=
  values.toList.foldlM (fun g (name, v) =>
    if schema.isFurtherNode name then g.setNodeValueByName name n v else .ok g) g

/-- Writes everything that a generator says of a state on its node. -/
def writeState (gen : Generator σ α) (schema : Schema) (handles : SchemaHandles) (s : σ)
    (n : NodeId) (g : Graph) : Except GraphError Graph := do
  let g ← g.setNodeValue handles.state n (toValue s)
  let g ← match handles.turn, gen.turn s with
    | some turn, some player => g.setNodeValue turn n (.int player)
    | _, _ => .ok g
  writeStateAttributes schema n g (gen.stateAttributes s)

/-- Adds the node of a state that has none yet. -/
def addState (gen : Generator σ α) (schema : Schema) (handles : SchemaHandles)
    (acc : Graph × OrderedMap σ NodeId) (s : σ) :
    Except CompileError (Graph × OrderedMap σ NodeId) := do
  let (g, index) := acc
  if index.contains s then throw (.duplicateState (shown s))
  let (g, n) ← CompileError.ofGraph g.addNode
  let g ← CompileError.ofGraph (gen.writeState schema handles s n g)
  return (g, index.insert s n)

/-- Adds the nodes of all states. -/
def addStates (gen : Generator σ α) (schema : Schema) (handles : SchemaHandles) (g : Graph) :
    Except CompileError (Graph × OrderedMap σ NodeId) :=
  gen.states.foldlM (gen.addState schema handles) (g, .empty)

end States

/-! ## Transitions -/

section Transitions

variable [DecidableEq σ] [ToValue α] [Shown σ] [Shown α]

/-- The successors of a state with an action, if they are of the shape that the
generator promises and, with probabilities, a distribution. -/
def targets (gen : Generator σ α) (options : CompileOptions) (s : σ) (a : α) :
    Except CompileError (List (σ × Option Binary64)) :=
  match gen.branching, gen.delta s a with
  | .deterministic, .single t => .ok [(t, none)]
  | .qualitative, .choice ts => .ok (ts.map fun t => (t, none))
  | .quantitative, .weighted ts =>
    match Distribution.check (ts.map Prod.snd) options.tolerance with
    | .ok () => .ok (ts.map fun (t, p) => (t, some p))
    | .error fault => .error (.invalidDistribution (shown s) (shown a) fault)
  | expected, found => .error (.shapeMismatch (shown s) (shown a) expected found.shape)

/-- The node of a successor. -/
def resolve (index : OrderedMap σ NodeId) (s : σ) (a : α) (target : σ × Option Binary64) :
    Except CompileError (σ × Option Binary64 × NodeId) :=
  match index.get? target.1 with
  | some n => .ok (target.1, target.2, n)
  | none => .error (.unknownState (shown s) (shown a) (shown target.1))

/-- Writes the attributes of a transition that belong to further properties. -/
def writeTransitionAttributes (schema : Schema) (e : EdgeId) (g : Graph) (values : Attributes) :
    Except GraphError Graph :=
  values.toList.foldlM (fun g (name, v) =>
    if schema.isFurtherEdge name then g.setEdgeValueByName name e v else .ok g) g

/-- Writes everything that a generator says of a transition on its edge. -/
def writeTransition (gen : Generator σ α) (schema : Schema) (handles : SchemaHandles) (s : σ)
    (a : α) (e : EdgeId) (g : Graph) (target : σ × Option Binary64 × NodeId) :
    Except GraphError Graph := do
  let (t, p, _) := target
  let g ← g.setEdgeValue handles.action e (toValue a)
  let g ← match handles.prob, p with
    | some prob, some p => g.setEdgeValue prob e (.float p)
    | _, _ => .ok g
  writeTransitionAttributes schema e g (gen.transitionAttributes s a t)

/-- Adds the edge of one transition and writes on it what belongs there. -/
def addTransition (gen : Generator σ α) (schema : Schema) (handles : SchemaHandles)
    (source : NodeId) (s : σ) (a : α) (g : Graph) (target : σ × Option Binary64 × NodeId) :
    Except (Fault GraphError) Graph := do
  let (g, e) ← g.addEdge source target.2.2
  Fault.lift (gen.writeTransition schema handles s a e g target)

/-- Adds the transitions of a state with an action. -/
def addAction (gen : Generator σ α) (options : CompileOptions) (schema : Schema)
    (handles : SchemaHandles) (index : OrderedMap σ NodeId) (source : NodeId) (s : σ) (g : Graph)
    (a : α) : Except (Fault CompileError) Graph := do
  let targets ← Fault.lift (gen.targets options s a)
  let resolved ← Fault.lift (targets.mapM (resolve index s a))
  let added := resolved.foldlM (gen.addTransition schema handles source s a) g
  added.mapError (Fault.map .graph)

/-- Adds the transitions of all states with all actions. -/
def addTransitions (gen : Generator σ α) (options : CompileOptions) (schema : Schema)
    (handles : SchemaHandles) (index : OrderedMap σ NodeId) (g : Graph) :
    Except (Fault CompileError) Graph :=
  index.toList.foldlM (fun g (s, source) =>
    gen.actions.foldlM (gen.addAction options schema handles index source s) g) g

end Transitions

/-! ## Labels -/

section Labels

variable [Shown σ]

/-- Writes the label of a state, of which every proposition must be declared. -/
def addLabel (labeling : Labeling σ) (handle : Handle NodeId) (g : Graph) (entry : σ × NodeId) :
    Except CompileError Graph :=
  let label := labeling.label entry.1
  match label.toList.find? fun atom => !labeling.atoms.contains atom with
  | some atom => .error (.unknownAtom (shown entry.1) atom)
  | none => CompileError.ofGraph (g.setNodeValue handle entry.2 (.labels label))

/-- Labels all states, if there are any propositions. -/
def addLabels (gen : Generator σ α) (handles : SchemaHandles) (index : OrderedMap σ NodeId)
    (g : Graph) : Except CompileError Graph :=
  match gen.labeling, handles.label with
  | some labeling, some handle => index.toList.foldlM (addLabel labeling handle) g
  | _, _ => .ok g

end Labels

/-! ## All steps -/

/-- Compiles a generator into a system whose handles carry the given identity. -/
def compile [DecidableEq σ] [ToValue σ] [ToValue α] [Shown σ] [Shown α] (gen : Generator σ α)
    (options : CompileOptions) (owner : Identity) :
    Except (Fault CompileError) (TransitionSystem σ α) := do
  Fault.lift options.validate
  let schema ← Fault.lift (Schema.plan gen.branching gen.turnBased gen.atoms gen.stateProperties
    gen.transitionProperties)
  let (g, handles) := schema.apply (.empty owner)
  let (g, index) ← Fault.lift (gen.addStates schema handles g)
  let g ← gen.addTransitions options schema handles index g
  let g ← Fault.lift (gen.addLabels handles index g)
  return .assemble g index gen.actions gen.atoms gen.branching gen.turnBased

end Generator

end StateGraph
