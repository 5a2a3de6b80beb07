import StateGraph.Snapshot.Frame

set_option autoImplicit false

/-!
# Runs of requests

Everything that a graph can be asked to change, as data, so that a whole history
is a list.  `Request.perform` is one request with its reply; a request that is refused
has no effect, and a history goes on after it.

A request that overflows stops the program.  A history goes on after it all the same,
with what the program has written by then (`Request.carriedOut`): whatever holds of every
history holds also where somebody catches the program and keeps the graph.

A history begins with a new graph, with a graph made of parts, or with a graph
read from bytes; parts and bytes may come from anywhere.
-/

namespace StateGraph

/-- A request to change a graph. -/
inductive Request where
  | addNode
  | addNodeWith (values : List (String × Value))
  | addNodes (count : UInt32)
  | addNodesWith (lists : List (List (String × Value)))
  | removeNode (n : NodeId)
  | addEdge (u v : NodeId)
  | addEdgeWith (u v : NodeId) (values : List (String × Value))
  | addEdges (list : List (NodeId × NodeId × List (String × Value)))
  | removeEdge (e : EdgeId)
  | declareNodeProperty (name : String) (default : Value)
  | declareEdgeProperty (name : String) (default : Value)
  | setNodeValue (h : Handle NodeId) (n : NodeId) (v : Value)
  | setNodeValueByName (name : String) (n : NodeId) (v : Value)
  | setEdgeValue (h : Handle EdgeId) (e : EdgeId) (v : Value)
  | setEdgeValueByName (name : String) (e : EdgeId) (v : Value)
  | setAttribute (name : String) (v : Value)
  /-- starts again from the empty graph, whose handles carry a new identity -/
  | clear (owner : Identity)
  /-- goes on with a copy -/
  | clone

/-- What a request gives back besides the graph. -/
inductive Reply where
  | done
  | node (n : NodeId)
  | span (s : NodeSpan)
  | edge (e : EdgeId)
  | edges (es : List EdgeId)
  | nodeHandle (h : Handle NodeId)
  | edgeHandle (h : Handle EdgeId)
  | previous (v : Option Value)
  deriving DecidableEq

/-- The edges that a reply says were added. -/
def Reply.addedEdges : Reply → List EdgeId
  | .edge e => [e]
  | .edges es => es
  | _ => []

/-- The edges of a batch up to the first one that cannot be added. -/
def Graph.addable (g : Graph) : List (NodeId × NodeId × List (String × Value)) →
    List (NodeId × NodeId × List (String × Value))
  | [] => []
  | (u, v, values) :: rest =>
    match g.addEdgeWith u v values with
    | .ok (g', _) => (u, v, values) :: g'.addable rest
    | .error _ => []

namespace Request

/-- The graph after a request, and the reply. -/
def perform (g : Graph) : Request → Except (Fault GraphError) (Graph × Reply)
  | .addNode => Fault.lift (g.addNode.map fun (g, n) => (g, .node n))
  | .addNodeWith values => Fault.lift ((g.addNodeWith values).map fun (g, n) => (g, .node n))
  | .addNodes count => Fault.lift ((g.addNodes count).map fun (g, s) => (g, .span s))
  | .addNodesWith lists => Fault.lift ((g.addNodesWith lists).map fun (g, s) => (g, .span s))
  | .removeNode n => Fault.lift ((g.removeNode n).map fun g => (g, .done))
  | .addEdge u v => (g.addEdge u v).map fun (g, e) => (g, .edge e)
  | .addEdgeWith u v values => (g.addEdgeWith u v values).map fun (g, e) => (g, .edge e)
  | .addEdges list => (g.addEdges list).map fun (g, es) => (g, .edges es)
  | .removeEdge e => Fault.lift ((g.removeEdge e).map fun g => (g, .done))
  | .declareNodeProperty name default =>
    .ok ((g.declareNodeProperty name default).1,
      .nodeHandle (g.declareNodeProperty name default).2)
  | .declareEdgeProperty name default =>
    .ok ((g.declareEdgeProperty name default).1,
      .edgeHandle (g.declareEdgeProperty name default).2)
  | .setNodeValue h n v => Fault.lift ((g.setNodeValue h n v).map fun g => (g, .done))
  | .setNodeValueByName name n v =>
    Fault.lift ((g.setNodeValueByName name n v).map fun g => (g, .done))
  | .setEdgeValue h e v => Fault.lift ((g.setEdgeValue h e v).map fun g => (g, .done))
  | .setEdgeValueByName name e v =>
    Fault.lift ((g.setEdgeValueByName name e v).map fun g => (g, .done))
  | .setAttribute name v => .ok ((g.setAttribute name v).1, .previous (g.setAttribute name v).2)
  | .clear owner => .ok (.empty owner, .done)
  | .clone => .ok (g, .done)

/-- The edges that a request adds as a batch. -/
def batch : Request → List (NodeId × NodeId × List (String × Value))
  | .addEdges list => list
  | _ => []

/-- What is carried out of a request: all of it, unless it overflows; then the edges of
its batch up to the first one that has no key. -/
def carriedOut (g : Graph) (r : Request) : Request :=
  match r.perform g with
  | .error .overflow => .addEdges (g.addable r.batch)
  | _ => r

/-- The graph after a request.  One that is refused leaves the graph as it is, and one
that overflows leaves what is carried out of it. -/
def apply (g : Graph) (r : Request) : Graph :=
  match (r.carriedOut g).perform g with
  | .ok (g', _) => g'
  | .error _ => g

/-- Whether a request starts again from the empty graph. -/
def resets : Request → Bool
  | .clear _ => true
  | _ => false

/-- What does not overflow is carried out as it is. -/
theorem carriedOut_of_ne_overflow {g : Graph} {r : Request}
    (hperform : r.perform g ≠ .error .overflow) : r.carriedOut g = r := by
  unfold carriedOut
  split
  · contradiction
  · rfl

theorem carriedOut_of_ok {g : Graph} {r : Request} {result : Graph × Reply}
    (hperform : r.perform g = .ok result) : r.carriedOut g = r :=
  carriedOut_of_ne_overflow (hperform ▸ nofun)

theorem carriedOut_of_refused {g : Graph} {r : Request} {e : GraphError}
    (hperform : r.perform g = .error (.refused e)) : r.carriedOut g = r :=
  carriedOut_of_ne_overflow (hperform ▸ nofun)

theorem carriedOut_of_overflow {g : Graph} {r : Request}
    (hperform : r.perform g = .error .overflow) :
    r.carriedOut g = .addEdges (g.addable r.batch) := by
  unfold carriedOut
  rw [hperform]

theorem apply_of_ok {g g' : Graph} {r : Request} {reply : Reply}
    (hperform : r.perform g = .ok (g', reply)) : r.apply g = g' := by
  unfold apply
  rw [carriedOut_of_ok hperform, hperform]

/-- What overflows leaves the edges of its batch that came before. -/
theorem apply_of_overflow {g g' : Graph} {r : Request} {reply : Reply}
    (hperform : r.perform g = .error .overflow)
    (haddable : (Request.addEdges (g.addable r.batch)).perform g = .ok (g', reply)) :
    r.apply g = g' := by
  unfold apply
  rw [carriedOut_of_overflow hperform, haddable]

theorem apply_of_refused {g : Graph} {r : Request} {e : GraphError}
    (hperform : r.perform g = .error (.refused e)) : r.apply g = g := by
  unfold apply
  rw [carriedOut_of_refused hperform, hperform]

/-- Only a request that is carried out whole starts again. -/
theorem resets_carriedOut (g : Graph) (r : Request) : (r.carriedOut g).resets = r.resets := by
  cases r with
  | clear owner => rfl
  | _ =>
    unfold carriedOut
    split <;> rfl

/-- What requests keep that succeed, every request keeps. -/
theorem apply_keeps {P : Graph → Prop} {g : Graph} {r : Request} (hg : P g)
    (hstep : ∀ r' : Request, r'.resets = r.resets →
      ∀ {g' reply}, r'.perform g = .ok (g', reply) → P g') : P (r.apply g) := by
  unfold apply
  split
  · rename_i g' reply hperform
    exact hstep _ (resets_carriedOut g r) hperform
  · exact hg

end Request

namespace Graph

/-- The graph after a history of requests. -/
def run (g : Graph) (requests : List Request) : Graph := requests.foldl Request.apply g

/-- The graphs with which a history can begin. -/
inductive Origin : Graph → Prop where
  /-- a new graph -/
  | new (owner : Identity) : Origin (.empty owner)
  /-- a graph made of parts, whatever they are -/
  | parts {owner : Identity} {nodeCount : UInt32} {entries : List (NodeId × NodeId × UInt32)}
      {nodeProperties : List (Property NodeId)} {edgeProperties : List (Property EdgeId)}
      {attributes : Attributes} {g : Graph}
      (made : ofParts owner nodeCount entries nodeProperties edgeProperties attributes = .ok g) :
      Origin g
  /-- a graph read from bytes, whatever they are and whatever the checksum is -/
  | bytes {digest : Bytes → Digest} {owner : Identity} {bs : Bytes} {g : Graph}
      (read : Snapshot.decodeWith digest owner bs = .ok g) : Origin g

/-- A snapshot becomes a graph if it is of the right kind, its parts make the graph, and it
counts the edges as the graph does. -/
theorem toGraph_eq_ok_iff {s : Snapshot} {owner : Identity} {g : Graph} :
    s.toGraph owner = .ok g ↔ s.kind = Snapshot.graphKind ∧
      ofParts owner s.nodeCount s.entries (s.nodeProperties.map (·.toProperty))
        (s.edgeProperties.map (·.toProperty)) (.ofList s.attributes) = .ok g ∧
      g.edgeCount.toUInt64 = s.edgeCount := by
  unfold Snapshot.toGraph
  split
  · rename_i hkind
    exact iff_of_false nofun fun hall => hkind hall.1
  · rename_i hkind
    rw [and_iff_right (Decidable.not_not.1 hkind)]
    split
    · rename_i hparts
      rw [hparts]
      exact iff_of_false nofun nofun
    · rename_i made hparts
      rw [hparts, Except.ok.injEq]
      split
      · rename_i hcount
        exact iff_of_false nofun fun hall => hcount (hall.1 ▸ hall.2)
      · rename_i hcount
        rw [Except.ok.injEq]
        exact ⟨fun heq => ⟨heq, heq ▸ Decidable.not_not.1 hcount⟩, And.left⟩

/-- A graph read from bytes is made of the parts that the bytes hold. -/
theorem ofParts_of_decodeWith {digest : Bytes → Digest} {owner : Identity} {bs : Bytes} {g : Graph}
    (hread : Snapshot.decodeWith digest owner bs = .ok g) :
    ∃ s : Snapshot, ofParts owner s.nodeCount s.entries (s.nodeProperties.map (·.toProperty))
      (s.edgeProperties.map (·.toProperty)) (.ofList s.attributes) = .ok g := by
  unfold Snapshot.decodeWith at hread
  split at hread
  · cases hread
  · split at hread
    · cases hread
    · rename_i s hpayload
      exact ⟨s, (toGraph_eq_ok_iff.1 hread).2.1⟩

end Graph

end StateGraph
