import StateGraph.Property
import StateGraph.Transition.Branching

set_option autoImplicit false

/-!
# Generators of transition systems

A generator says what a transition system is: its states and actions, and what
each action does in each state.  It may also say whose turn it is, which
propositions hold, and give further attributes to states and transitions.
-/

namespace StateGraph

/-- What an action leads to. -/
inductive Successors (σ : Type) where
  /-- one state -/
  | single (target : σ)
  /-- any of several states -/
  | choice (targets : List σ)
  /-- states with their probabilities -/
  | weighted (targets : List (σ × Binary64))
  deriving Repr, Inhabited

/-- The three shapes that successors can have. -/
inductive Shape where
  | single
  | unweighted
  | weighted
  deriving DecidableEq, Repr

/-- The name of a shape in messages. -/
def Shape.name : Shape → String
  | .single => "a single"
  | .unweighted => "unweighted"
  | .weighted => "weighted"

namespace Successors

variable {σ : Type}

/-- The shape of successors. -/
def shape : Successors σ → Shape
  | .single _ => .single
  | .choice _ => .unweighted
  | .weighted _ => .weighted

/-- The successors in order, with their probabilities if they have any. -/
def toList : Successors σ → List (σ × Option Binary64)
  | .single t => [(t, none)]
  | .choice ts => ts.map fun t => (t, none)
  | .weighted ts => ts.map fun (t, p) => (t, some p)

/-- Number of successors. -/
def size : Successors σ → Nat
  | .single _ => 1
  | .choice ts => ts.length
  | .weighted ts => ts.length

/-- Whether there is no successor. -/
def isEmpty (s : Successors σ) : Bool := s.size == 0

end Successors

/-- Propositions, and those that hold in each state. -/
structure Labeling (σ : Type) where
  atoms : LabelSet
  label : σ → LabelSet

/-- A transition system in terms of states `σ` and actions `α`. -/
structure Generator (σ α : Type) where
  states : List σ
  actions : List α
  /-- what an action leads to in a state -/
  delta : σ → α → Successors σ
  /-- whether states belong to players -/
  turnBased : Bool := true
  deterministic : Bool := true
  qualitative : Bool := false
  /-- the player whose turn it is -/
  turn : σ → Option Int64 := fun _ => none
  labeling : Option (Labeling σ) := none
  /-- further properties of states, with their defaults -/
  stateProperties : Attributes := .empty
  /-- further properties of transitions, with their defaults -/
  transitionProperties : Attributes := .empty
  /-- the values of further properties of a state -/
  stateAttributes : σ → Attributes := fun _ => .empty
  /-- the values of further properties of a transition -/
  transitionAttributes : σ → α → σ → Attributes := fun _ _ _ => .empty

namespace Generator

variable {σ α : Type}

/-- How the system branches. -/
def branching (gen : Generator σ α) : Branching :=
  .ofFlags gen.deterministic gen.qualitative

/-- The propositions, if states are labelled. -/
def atoms (gen : Generator σ α) : Option LabelSet := gen.labeling.map (·.atoms)

end Generator

end StateGraph
