import StateGraph.Adjacency

set_option autoImplicit false

/-!
# Reachability

The nodes that can be reached from a node by at least one edge, in the order in
which a depth-first search with an explicit stack takes them up: the neighbours
of a node are pushed in order, so the last of them comes first, and a node is
pushed only once.  The start is found only if a path leads back to it.

The search keeps the nodes that have not been pushed yet.  Pushing moves a node
from there to the stack, and every round takes one node off the stack, so the
number of nodes in both together falls and the search ends.
-/

namespace StateGraph

/-- A search under way: the stack, top first, and the nodes never pushed. -/
structure Frontier where
  stack : List NodeId
  unseen : List NodeId
  deriving DecidableEq, Repr

namespace Frontier

/-- Pushes, one after another, those of the given nodes that were never pushed. -/
def push : List NodeId → Frontier → Frontier
  | [], f => f
  | m :: ms, f =>
    if m ∈ f.unseen then push ms ⟨m :: f.stack, f.unseen.erase m⟩ else push ms f

/-- Number of nodes on the stack or never pushed. -/
def size (f : Frontier) : Nat := f.stack.length + f.unseen.length

/-- Pushing only moves nodes. -/
theorem size_push (ms : List NodeId) (f : Frontier) : (push ms f).size = f.size := by
  induction ms generalizing f with
  | nil => rfl
  | cons m ms ih =>
    unfold push
    split
    · rename_i h
      rw [ih]
      have h1 := List.length_erase_of_mem h
      have h2 := List.length_pos_of_mem h
      simp only [size, List.length_cons]
      omega
    · exact ih f

/-- Takes nodes off the stack until it is empty; `found` are the nodes taken so
far, latest first. -/
def run (next : NodeId → List NodeId) : Frontier → List NodeId → List NodeId
  | ⟨[], _⟩, found => found.reverse
  | ⟨n :: rest, unseen⟩, found => run next (push (next n) ⟨rest, unseen⟩) (n :: found)
termination_by f => f.size
decreasing_by
  rw [size_push]
  simp only [size, List.length_cons]
  omega

end Frontier

/-- Searches from the neighbours of a node, within the given nodes. -/
def reach (next : NodeId → List NodeId) (all : List NodeId) (start : NodeId) : List NodeId :=
  (Frontier.push (next start) ⟨[], all⟩).run next []

namespace Adjacency

/-- The nodes that a path of at least one edge leads to from a node. -/
def descendants (a : Adjacency) (n : NodeId) : List NodeId :=
  reach a.successors a.sources.keys n

/-- The nodes from which a path of at least one edge leads to a node. -/
def ancestors (a : Adjacency) (n : NodeId) : List NodeId :=
  reach a.predecessors a.targets.keys n

end Adjacency

end StateGraph
