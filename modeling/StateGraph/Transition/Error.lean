import StateGraph.Transition.Distribution
import StateGraph.Transition.Generator
import StateGraph.Value.Text

set_option autoImplicit false

/-!
# What can be wrong with a generator or a compiled graph

States and actions may be of any type; errors carry their text.  Each
constructor is one cause; the wording is in the `message` functions alone.
-/

namespace StateGraph

/-- The two scopes of further properties. -/
inductive Scope where
  | state
  | transition
  deriving DecidableEq, Repr

/-- The name of a scope in messages. -/
def Scope.name : Scope → String
  | .state => "state"
  | .transition => "transition"

/-- Why a graph is not a compiled one. -/
inductive MetadataFault where
  /-- an attribute of the graph is missing or of the wrong kind -/
  | missing (key : String)
  /-- the kind of branching has a name that is not known -/
  | unknownKind (name : String)
  /-- the propositions are not a label set -/
  | notLabels (key : String) (found : Value)
  /-- a node property is not declared -/
  | noNodeProperty (name : String)
  deriving DecidableEq

/-- The text of a metadata fault. -/
def MetadataFault.message : MetadataFault → String
  | .missing key => "missing graph property '" ++ key ++ "'"
  | .unknownKind name => Branching.unknownNameMessage name
  | .notLabels key found =>
    "graph property '" ++ key ++ "' holds " ++ found.display ++ ", expected a label set"
  | .noNodeProperty name => "no '" ++ name ++ "' node property"

/-- Why a generator is not compiled, or a graph is not accepted as compiled. -/
inductive CompileError where
  /-- further properties with names that are taken -/
  | nameConflict (scope : Scope) (names : List String)
  /-- a successor that is not among the states -/
  | unknownState (state action target : String)
  /-- weighted successors that are not a distribution -/
  | invalidDistribution (state action : String) (fault : DistributionFault)
  /-- successors of the wrong shape -/
  | shapeMismatch (state action : String) (expected : Branching) (found : Shape)
  /-- a label with a proposition that is not declared -/
  | unknownAtom (state atom : String)
  /-- a state that occurs twice -/
  | duplicateState (state : String)
  /-- a tolerance that is not in the half-open unit interval -/
  | invalidTolerance (tolerance : Binary64)
  /-- a graph that is not a compiled one -/
  | missingMetadata (fault : MetadataFault)
  /-- the graph refused a request -/
  | graph (error : GraphError)
  deriving DecidableEq

/-- The text of an error. -/
def CompileError.message : CompileError → String
  | .nameConflict scope names =>
    "cannot use reserved property names " ++ shown names ++ " as " ++ scope.name ++ " properties"
  | .unknownState state action target =>
    "delta(" ++ state ++ ", " ++ action ++ ") returned " ++ target ++
      ", which is not in the transition system"
  | .invalidDistribution state action fault =>
    "delta(" ++ state ++ ", " ++ action ++ ") is not a distribution: " ++ fault.message
  | .shapeMismatch state action expected found =>
    "delta(" ++ state ++ ", " ++ action ++ ") returned " ++ found.name ++
      " successors, but the generator is " ++ expected.name
  | .unknownAtom state atom =>
    "label of " ++ state ++ " contains atom '" ++ atom ++ "', which is not declared by atoms()"
  | .duplicateState state => "state " ++ state ++ " is enumerated more than once"
  | .invalidTolerance tolerance =>
    "invalid options: probability_tolerance must be finite and in [0, 1), got " ++
      tolerance.text .readable
  | .missingMetadata fault => "not a compiled transition graph: " ++ fault.message
  | .graph error => error.message

end StateGraph
