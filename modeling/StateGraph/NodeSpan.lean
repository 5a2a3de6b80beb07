import StateGraph.Element

set_option autoImplicit false

/-!
# Spans of nodes

New nodes get consecutive numbers, and all nodes of a graph form the span from 0
to its node count.  A span is half open and can be consumed from both ends; a
span whose start is not below its end holds nothing.
-/

namespace StateGraph

/-- The nodes numbered from `start` up to but without `stop`. -/
structure NodeSpan where
  start : UInt32
  stop : UInt32
  deriving DecidableEq, Repr, Inhabited

namespace NodeSpan

/-- Whether a node lies in the span. -/
def contains (s : NodeSpan) (n : NodeId) : Bool :=
  decide (s.start ≤ n.index) && decide (n.index < s.stop)

/-- Whether no node is left. -/
def isEmpty (s : NodeSpan) : Bool := decide (s.stop ≤ s.start)

/-- Number of nodes left. -/
def size (s : NodeSpan) : Nat := s.stop.toNat - s.start.toNat

/-- Takes the first node. -/
def popFront (s : NodeSpan) : Option NodeId × NodeSpan :=
  if s.start < s.stop then (some ⟨s.start⟩, ⟨s.start + 1, s.stop⟩) else (none, s)

/-- Takes the last node. -/
def popBack (s : NodeSpan) : Option NodeId × NodeSpan :=
  if s.start < s.stop then (some ⟨s.stop - 1⟩, ⟨s.start, s.stop - 1⟩) else (none, s)

/-- The nodes of the span in increasing order. -/
def toList (s : NodeSpan) : List NodeId :=
  (List.range s.size).map fun i => ⟨(s.start.toNat + i).toUInt32⟩

/-- Goes over a number of nodes, the first of which is given, until a step
fails. -/
def walk {ε β : Type} (f : β → NodeId → Except ε β) : Nat → Nat → β → Except ε β
  | 0, _, b => .ok b
  | n + 1, i, b =>
    match f b ⟨i.toUInt32⟩ with
    | .error e => .error e
    | .ok b => walk f n (i + 1) b

/-- Goes over the nodes of the span in increasing order, until a step fails; the
nodes are not listed first. -/
def foldlM {ε β : Type} (f : β → NodeId → Except ε β) (b : β) (s : NodeSpan) : Except ε β :=
  walk f s.size s.start.toNat b

/-- Does something with each node of the span, until it fails. -/
def forM {ε : Type} (f : NodeId → Except ε Unit) (s : NodeSpan) : Except ε Unit :=
  s.foldlM (fun _ n => f n) ()

theorem walk_eq_foldlM {ε β : Type} (f : β → NodeId → Except ε β) (n i : Nat) (b : β) :
    walk f n i b = ((List.range' i n).map fun k => NodeId.mk k.toUInt32).foldlM f b := by
  induction n generalizing i b with
  | zero => rfl
  | succ n ih =>
    simp only [walk, List.range'_succ, List.map_cons, List.foldlM_cons]
    cases f b ⟨i.toUInt32⟩ with
    | error e => rfl
    | ok b => exact ih (i + 1) b

/-- Going over a span is going over the list of its nodes. -/
theorem foldlM_eq_foldlM_toList {ε β : Type} (f : β → NodeId → Except ε β) (b : β) (s : NodeSpan) :
    s.foldlM f b = s.toList.foldlM f b := by
  rw [foldlM, walk_eq_foldlM, toList, List.range'_eq_map_range, List.map_map]
  rfl

end NodeSpan

end StateGraph
