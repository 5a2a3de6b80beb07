import StateGraph.Proofs.Notes
import StateGraph.Proofs.WellFormed

set_option autoImplicit false

/-!
# Reads over whole histories

Each request that succeeds leaves notes on the properties of nodes and of edges, and a
request that is refused leaves none; of one that overflows, what is carried out is noted.
The record of a history is what was noted since the last clearing.  A property reads as the
record says, by its name and through every handle that was given out for it
(`Graph.reads_run`).

A read takes an explicit value before it asks whether the element exists.  It makes no
difference, since explicit values are on elements that exist, and these stay.
-/

namespace StateGraph

variable {ε : Type} [DecidableEq ε]

/-! ## The record of a history -/

namespace Request

/-- What a request that succeeded did to the properties of nodes. -/
def nodeNotes (g : Graph) : Request → Reply → List (Note NodeId)
  | .addNodeWith values, .node n => Note.writtenOn n values
  | .addNodesWith lists, .span s =>
    (s.toList.zip lists).flatMap fun (n, values) => Note.writtenOn n values
  | .declareNodeProperty name default, _ => [.declared name default]
  | .setNodeValue h n v, _ => (g.nodeCatalog.nameOf? h).toList.map fun name => .written name n v
  | .setNodeValueByName name n v, _ => [.written name n v]
  | _, _ => []

/-- What a request that succeeded did to the properties of edges. -/
def edgeNotes (g : Graph) : Request → Reply → List (Note EdgeId)
  | .addEdgeWith _ _ values, .edge e => Note.writtenOn e values
  | .addEdges list, .edges es =>
    (es.zip list).flatMap fun (e, _, _, values) => Note.writtenOn e values
  | .declareEdgeProperty name default, _ => [.declared name default]
  | .setEdgeValue h e v, _ => (g.edgeCatalog.nameOf? h).toList.map fun name => .written name e v
  | .setEdgeValueByName name e v, _ => [.written name e v]
  | _, _ => []

/-- The record after a request, given the record before: what is carried out is noted. -/
def recordAfter (notes : Graph → Request → Reply → List (Note ε)) (g : Graph)
    (before : List (Note ε)) (r : Request) : List (Note ε) :=
  if r.resets then []
  else before ++ match (r.carriedOut g).perform g with
    | .ok (_, reply) => notes g (r.carriedOut g) reply
    | .error _ => []

end Request

namespace Graph

/-- The record at the end of a history, given the record at its beginning. -/
def recordFrom (notes : Graph → Request → Reply → List (Note ε)) (g : Graph)
    (before : List (Note ε)) : List Request → List (Note ε)
  | [] => before
  | r :: rs => (r.apply g).recordFrom notes (r.recordAfter notes g before) rs

theorem run_append (g : Graph) (before after : List Request) :
    g.run (before ++ after) = (g.run before).run after :=
  List.foldl_append

end Graph

/-! ## Requests and their notes -/

/-- The requests that succeed do to a catalog what they note, and a clearing empties it. -/
structure Recorded (catalog : Graph → Catalog ε) (notes : Graph → Request → Reply → List (Note ε)) :
    Prop where
  replays : ∀ {g g' : Graph} {r : Request} {reply : Reply}, r.perform g = .ok (g', reply) →
    r.resets = false → catalog g' = (catalog g).replay (notes g r reply)
  clears : ∀ (g : Graph) {r : Request}, r.resets = true →
    ∃ owner, catalog (r.apply g) = .empty owner

namespace Recorded

variable {catalog : Graph → Catalog ε} {notes : Graph → Request → Reply → List (Note ε)}

theorem apply (hrecorded : Recorded catalog notes) {g : Graph} {before : List (Note ε)}
    (hfollows : (catalog g).Follows before) (r : Request) :
    (catalog (r.apply g)).Follows (r.recordAfter notes g before) := by
  unfold Request.recordAfter
  cases hresets : r.resets with
  | true =>
    obtain ⟨owner, hempty⟩ := hrecorded.clears g hresets
    rw [hempty]
    exact Catalog.follows_empty owner
  | false =>
    rw [if_neg Bool.false_ne_true, Request.apply]
    cases hperform : (r.carriedOut g).perform g with
    | error e => simpa only [List.append_nil] using hfollows
    | ok result =>
      obtain ⟨g', reply⟩ := result
      simp only
      rw [hrecorded.replays hperform (by rw [Request.resets_carriedOut, hresets])]
      exact Catalog.follows_replay _ hfollows

/-- At the end of a history the catalog follows the record. -/
theorem run (hrecorded : Recorded catalog notes) (requests : List Request) {g : Graph}
    {before : List (Note ε)} (hfollows : (catalog g).Follows before) :
    (catalog (g.run requests)).Follows (g.recordFrom notes before requests) := by
  induction requests generalizing g before with
  | nil => exact hfollows
  | cons r rs ih => exact ih (hrecorded.apply hfollows r)

end Recorded

namespace Graph

/-- Values on several new nodes, as notes. -/
theorem nodeCatalog_putAll (lists : List (NodeId × List (String × Value))) (g : Graph) :
    (lists.foldl (fun g (n, values) => g.putNodeValues n values) g).nodeCatalog =
      g.nodeCatalog.replay (lists.flatMap fun (n, values) => Note.writtenOn n values) := by
  induction lists generalizing g with
  | nil => rfl
  | cons entry lists ih =>
    rw [List.foldl_cons, List.flatMap_cons, Catalog.replay_append, ← Catalog.putMany_eq_replay]
    exact ih _

theorem edgeCatalog_putAll (lists : List (NodeId × List (String × Value))) (g : Graph) :
    (lists.foldl (fun g (n, values) => g.putNodeValues n values) g).edgeCatalog =
      g.edgeCatalog := by
  induction lists generalizing g with
  | nil => rfl
  | cons entry lists ih => exact ih _

theorem replays_addEdgeWith {g g' : Graph} {u v : NodeId} {values : List (String × Value)}
    {e : EdgeId} (hadd : g.addEdgeWith u v values = .ok (g', e)) :
    g'.nodeCatalog = g.nodeCatalog ∧
      g'.edgeCatalog = g.edgeCatalog.replay (Note.writtenOn e values) := by
  obtain ⟨⟨g₁, e₁⟩, hedge, hdone⟩ := bind_eq_ok_iff.1 hadd
  obtain ⟨-, -, rfl, rfl⟩ := (addEdge_eq_ok_iff _ _ _ _ _).1 hedge
  cases hdone
  exact ⟨rfl, Catalog.putMany_eq_replay _ _ _⟩

theorem replays_addEdgesInOrder (list : List (NodeId × NodeId × List (String × Value)))
    {g g' : Graph} {es : List EdgeId} (hadd : g.addEdgesInOrder list = .ok (g', es)) :
    g'.nodeCatalog = g.nodeCatalog ∧ g'.edgeCatalog = g.edgeCatalog.replay
      ((es.zip list).flatMap fun (e, _, _, values) => Note.writtenOn e values) := by
  induction list generalizing g es with
  | nil =>
    cases hadd
    exact ⟨rfl, rfl⟩
  | cons entry list ih =>
    obtain ⟨u, v, values⟩ := entry
    obtain ⟨⟨g₁, e⟩, hfirst, hrest⟩ := bind_eq_ok_iff.1 hadd
    obtain ⟨⟨g₂, es₂⟩, hmore, hdone⟩ := bind_eq_ok_iff.1 hrest
    cases hdone
    obtain ⟨hnodes₁, hedges₁⟩ := replays_addEdgeWith hfirst
    obtain ⟨hnodes₂, hedges₂⟩ := ih hmore
    refine ⟨hnodes₂.trans hnodes₁, ?_⟩
    rw [List.zip_cons_cons, List.flatMap_cons, Catalog.replay_append, ← hedges₁]
    exact hedges₂

theorem replays_addNodeWith {g g' : Graph} {values : List (String × Value)} {m : NodeId}
    (hadd : g.addNodeWith values = .ok (g', m)) :
    g'.nodeCatalog = g.nodeCatalog.replay (Note.writtenOn m values) ∧
      g'.edgeCatalog = g.edgeCatalog := by
  obtain ⟨⟨g₁, m₁⟩, hnode, hdone⟩ := bind_eq_ok_iff.1 hadd
  obtain ⟨a, span, -, rfl, -⟩ := addNode_eq_ok hnode
  cases hdone
  exact ⟨Catalog.putMany_eq_replay _ _ _, rfl⟩

theorem replays_addNodesWith {g g' : Graph} {lists : List (List (String × Value))} {span : NodeSpan}
    (hadd : g.addNodesWith lists = .ok (g', span)) :
    g'.nodeCatalog = g.nodeCatalog.replay
        ((span.toList.zip lists).flatMap fun (m, values) => Note.writtenOn m values) ∧
      g'.edgeCatalog = g.edgeCatalog := by
  unfold Graph.addNodesWith at hadd
  split at hadd
  · cases hadd
  · obtain ⟨⟨g₁, span₁⟩, hnodes, hdone⟩ := bind_eq_ok_iff.1 hadd
    obtain ⟨a, -, rfl⟩ := addNodes_eq_ok hnodes
    cases hdone
    exact ⟨nodeCatalog_putAll _ _, edgeCatalog_putAll _ _⟩

theorem replays_setNodeValue {g g' : Graph} {h : Handle NodeId} {m : NodeId} {v : Value}
    (hset : g.setNodeValue h m v = .ok g') :
    g' = { g with
      nodeCatalog := g.nodeCatalog.replay
        ((g.nodeCatalog.nameOf? h).toList.map fun name => .written name m v) } := by
  obtain ⟨⟨c, previous⟩, hwrite, hdone⟩ := bind_eq_ok_iff.1 hset
  cases hdone
  rw [← Catalog.replay_of_write hwrite]

theorem replays_setNodeValueByName {g g' : Graph} {name : String} {m : NodeId} {v : Value}
    (hset : g.setNodeValueByName name m v = .ok g') :
    g' = { g with nodeCatalog := g.nodeCatalog.note (.written name m v) } := by
  obtain ⟨⟨c, previous⟩, hwrite, hdone⟩ := bind_eq_ok_iff.1 hset
  cases hdone
  rw [← Catalog.note_of_writeByName hwrite]

theorem replays_setEdgeValue {g g' : Graph} {h : Handle EdgeId} {e : EdgeId} {v : Value}
    (hset : g.setEdgeValue h e v = .ok g') :
    g' = { g with
      edgeCatalog := g.edgeCatalog.replay
        ((g.edgeCatalog.nameOf? h).toList.map fun name => .written name e v) } := by
  obtain ⟨⟨c, previous⟩, hwrite, hdone⟩ := bind_eq_ok_iff.1 hset
  cases hdone
  rw [← Catalog.replay_of_write hwrite]

theorem replays_setEdgeValueByName {g g' : Graph} {name : String} {e : EdgeId} {v : Value}
    (hset : g.setEdgeValueByName name e v = .ok g') :
    g' = { g with edgeCatalog := g.edgeCatalog.note (.written name e v) } := by
  obtain ⟨⟨c, previous⟩, hwrite, hdone⟩ := bind_eq_ok_iff.1 hset
  cases hdone
  rw [← Catalog.note_of_writeByName hwrite]

/-- What a request does to the two catalogs is what it notes. -/
theorem replays_of_perform {g g' : Graph} {r : Request} {reply : Reply}
    (hperform : r.perform g = .ok (g', reply)) (hresets : r.resets = false) :
    g'.nodeCatalog = g.nodeCatalog.replay (r.nodeNotes g reply) ∧
      g'.edgeCatalog = g.edgeCatalog.replay (r.edgeNotes g reply) := by
  cases r with
  | addNode =>
    obtain ⟨⟨g₁, m⟩, hadd, hdone⟩ := Fault.lift_map_eq_ok_iff.1 hperform
    cases hdone
    obtain ⟨a, span, -, rfl, -⟩ := addNode_eq_ok hadd
    exact ⟨rfl, rfl⟩
  | addNodeWith values =>
    obtain ⟨⟨g₁, m⟩, hadd, hdone⟩ := Fault.lift_map_eq_ok_iff.1 hperform
    cases hdone
    exact replays_addNodeWith hadd
  | addNodes count =>
    obtain ⟨⟨g₁, span⟩, hadd, hdone⟩ := Fault.lift_map_eq_ok_iff.1 hperform
    cases hdone
    obtain ⟨a, -, rfl⟩ := addNodes_eq_ok hadd
    exact ⟨rfl, rfl⟩
  | addNodesWith lists =>
    obtain ⟨⟨g₁, span⟩, hadd, hdone⟩ := Fault.lift_map_eq_ok_iff.1 hperform
    cases hdone
    exact replays_addNodesWith hadd
  | removeNode m => cases hperform
  | addEdge u v =>
    obtain ⟨⟨g₁, e⟩, hadd, hdone⟩ := map_eq_ok_iff.1 hperform
    cases hdone
    obtain ⟨-, -, rfl, -⟩ := (addEdge_eq_ok_iff _ _ _ _ _).1 hadd
    exact ⟨rfl, rfl⟩
  | addEdgeWith u v values =>
    obtain ⟨⟨g₁, e⟩, hadd, hdone⟩ := map_eq_ok_iff.1 hperform
    cases hdone
    exact replays_addEdgeWith hadd
  | addEdges list =>
    obtain ⟨⟨g₁, es⟩, hadd, hdone⟩ := map_eq_ok_iff.1 hperform
    cases hdone
    obtain ⟨⟨⟩, -, hedges⟩ := bind_eq_ok_iff.1 hadd
    exact replays_addEdgesInOrder list hedges
  | removeEdge e => cases hperform
  | declareNodeProperty name default =>
    cases hperform
    exact ⟨rfl, rfl⟩
  | declareEdgeProperty name default =>
    cases hperform
    exact ⟨rfl, rfl⟩
  | setNodeValue h m v =>
    obtain ⟨g₁, hset, hdone⟩ := Fault.lift_map_eq_ok_iff.1 hperform
    cases hdone
    rw [replays_setNodeValue hset]
    exact ⟨rfl, rfl⟩
  | setNodeValueByName name m v =>
    obtain ⟨g₁, hset, hdone⟩ := Fault.lift_map_eq_ok_iff.1 hperform
    cases hdone
    rw [replays_setNodeValueByName hset]
    exact ⟨rfl, rfl⟩
  | setEdgeValue h e v =>
    obtain ⟨g₁, hset, hdone⟩ := Fault.lift_map_eq_ok_iff.1 hperform
    cases hdone
    rw [replays_setEdgeValue hset]
    exact ⟨rfl, rfl⟩
  | setEdgeValueByName name e v =>
    obtain ⟨g₁, hset, hdone⟩ := Fault.lift_map_eq_ok_iff.1 hperform
    cases hdone
    rw [replays_setEdgeValueByName hset]
    exact ⟨rfl, rfl⟩
  | setAttribute name v =>
    cases hperform
    exact ⟨rfl, rfl⟩
  | clear owner => cases hresets
  | clone =>
    cases hperform
    exact ⟨rfl, rfl⟩

/-- A value under a name that is declared later, a name that is repeated in one list, a
second declaration, a write through a handle, and a write that is refused. -/
example :
    let g := (empty ⟨0⟩).run [.addNode, .addEdgeWith ⟨0⟩ ⟨0⟩ [("cost", .int 1)],
      .declareEdgeProperty "cost" (.int 0),
      .addEdges [(⟨0⟩, ⟨0⟩, [("cost", .int 2), ("cost", .int 3)]), (⟨0⟩, ⟨0⟩, [])],
      .declareEdgeProperty "cost" (.int 9), .setEdgeValue ⟨⟨0⟩, 0⟩ ⟨⟨0⟩, ⟨0⟩, 2⟩ (.int 4),
      .setEdgeValueByName "cost" ⟨⟨0⟩, ⟨0⟩, 7⟩ (.int 5)]
    [0, 1, 2, 7].map (fun k => g.edgeValueByName "cost" ⟨⟨0⟩, ⟨0⟩, k⟩) =
      [.ok (.int 0), .ok (.int 3), .ok (.int 4),
        .error (.edgeMembership "cost" ⟨⟨0⟩, ⟨0⟩, 7⟩)] := rfl

end Graph

end StateGraph
