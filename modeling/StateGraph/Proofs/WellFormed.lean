import StateGraph.Proofs.Adjacency
import StateGraph.Proofs.Catalogs
import StateGraph.Proofs.Requests

set_option autoImplicit false

/-!
# Well-formed graphs over whole histories

A graph is well-formed if its adjacency is, if properties are filed under their
own names, and if explicit values are on nodes and edges that the graph has.

Every history ends in a well-formed graph (`Graph.wellFormed_run`).  What carries the
edge counter and the values on edges through it is that an edge is only added to a pair
which has a key left: a request for any other edge overflows, and of a batch that
overflows only the edges before that one are there.
-/

namespace StateGraph

namespace Graph

/-! ## Well-formed graphs -/

/-- Both indexes of the adjacency fit the nodes and each other, the edge counter is
right, properties are filed under their own and distinct names, and explicit
values are on elements of the graph. -/
structure WellFormed (g : Graph) : Prop where
  adjacency : g.adjacency.WellFormed
  nodeProperties : g.nodeCatalog.Within g.hasNode
  edgeProperties : g.edgeCatalog.Within g.hasEdge
  nodeNames : g.nodeCatalog.names.Nodup := OrderedMap.nodup_keys _
  edgeNames : g.edgeCatalog.names.Nodup := OrderedMap.nodup_keys _

/-! ## Origins -/

theorem wellFormed_empty (owner : Identity) : (empty owner).WellFormed where
  adjacency := Adjacency.wellFormed_isolated 0
  nodeProperties := Catalog.within_empty _ owner
  edgeProperties := Catalog.within_empty _ owner

theorem wellFormed_ofParts {owner : Identity} {nodeCount : UInt32}
    {entries : List (NodeId × NodeId × UInt32)} {nodeProperties : List (Property NodeId)}
    {edgeProperties : List (Property EdgeId)} {attributes : Attributes} {g : Graph}
    (hmade : ofParts owner nodeCount entries nodeProperties edgeProperties attributes = .ok g) :
    g.WellFormed := by
  unfold ofParts at hmade
  obtain ⟨a, hadjacency, hrest⟩ := bind_eq_ok_iff.1 hmade
  obtain ⟨nodes, hnodes, hrest⟩ := bind_eq_ok_iff.1 hrest
  obtain ⟨edges, hedges, hdone⟩ := bind_eq_ok_iff.1 hrest
  cases hdone
  have hnodeWithin := Catalog.within_fileAll _ (Catalog.within_empty a.hasNode owner) hnodes
  have hedgeWithin := Catalog.within_fileAll _ (Catalog.within_empty a.hasEdge owner) hedges
  exact {
    adjacency := Adjacency.wellFormed_ofEntries hadjacency
    nodeProperties := hnodeWithin
    edgeProperties := hedgeWithin }

theorem Origin.wellFormed {g : Graph} (horigin : g.Origin) : g.WellFormed := by
  cases horigin with
  | new owner => exact wellFormed_empty owner
  | parts made => exact wellFormed_ofParts made
  | bytes read =>
    obtain ⟨s, hmade⟩ := ofParts_of_decodeWith read
    exact wellFormed_ofParts hmade

/-! ## Nodes -/

/-- New nodes leave everything as it is. -/
theorem WellFormed.addNodes {g : Graph} (hwell : g.WellFormed) {count : UInt32}
    {a : Adjacency} {span : NodeSpan} (hadd : g.adjacency.addNodes count = .ok (a, span)) :
    ({ g with adjacency := a } : Graph).WellFormed := by
  obtain ⟨hfits, rfl, rfl⟩ := (Adjacency.addNodes_eq_ok_iff _ _ _ _).1 hadd
  have hmore : ∀ m : NodeId, g.hasNode m = true →
      ({ g.adjacency with nodeCount := g.adjacency.nodeCount + count } : Adjacency).hasNode m =
        true := by
    intro m hm
    rw [hasNode, Adjacency.hasNode_iff] at hm
    rw [Adjacency.hasNode_iff, Adjacency.toNat_nodeCount_add hfits]
    exact Nat.lt_of_lt_of_le hm (Nat.le_add_right _ _)
  exact {
    adjacency := ⟨hwell.adjacency.grow rfl rfl hmore, hwell.adjacency.counter⟩
    nodeProperties := hwell.nodeProperties.mono hmore
    edgeProperties := hwell.edgeProperties }

/-- The nodes of a new span exist. -/
theorem hasNode_of_mem_span {a b : Adjacency} {count : UInt32} {span : NodeSpan}
    (hadd : a.addNodes count = .ok (b, span)) {m : NodeId} (hm : m ∈ span.toList) :
    b.hasNode m = true := by
  obtain ⟨hfits, rfl, rfl⟩ := (Adjacency.addNodes_eq_ok_iff _ _ _ _).1 hadd
  rw [Adjacency.hasNode_iff]
  obtain ⟨i, hi, rfl⟩ := List.mem_map.1 hm
  have hsize : i < (a.nodeCount + count).toNat - a.nodeCount.toNat := List.mem_range.1 hi
  have hbound := (a.nodeCount + count).toNat_lt
  show (a.nodeCount.toNat + i).toUInt32.toNat < (a.nodeCount + count).toNat
  rw [toNat_toUInt32 (by omega)]
  omega

/-- Values on a node that exists. -/
theorem WellFormed.putNodeValues {g : Graph} (hwell : g.WellFormed) {m : NodeId}
    (hm : g.hasNode m = true) (values : List (String × Value)) :
    (g.putNodeValues m values).WellFormed where
  adjacency := hwell.adjacency
  nodeProperties := hwell.nodeProperties.putMany hm values
  edgeProperties := hwell.edgeProperties

/-- Values on several nodes that exist. -/
theorem WellFormed.putAllNodeValues (lists : List (NodeId × List (String × Value)))
    {g : Graph} (hwell : g.WellFormed) (hnodes : ∀ entry ∈ lists, g.hasNode entry.1 = true) :
    (lists.foldl (fun g (m, values) => g.putNodeValues m values) g).WellFormed := by
  induction lists generalizing g with
  | nil => exact hwell
  | cons entry lists ih =>
    obtain ⟨m, values⟩ := entry
    refine ih (hwell.putNodeValues (hnodes (m, values) List.mem_cons_self) values) ?_
    intro other hother
    exact hnodes other (List.mem_cons_of_mem _ hother)

theorem addNode_eq_ok {g g' : Graph} {m : NodeId} (hadd : g.addNode = .ok (g', m)) :
    ∃ a span, g.adjacency.addNodes 1 = .ok (a, span) ∧ g' = { g with adjacency := a } ∧
      m = ⟨span.start⟩ := by
  unfold addNode at hadd
  obtain ⟨⟨a, span⟩, hnodes, hdone⟩ := bind_eq_ok_iff.1 hadd
  cases hdone
  exact ⟨a, span, hnodes, rfl, rfl⟩

theorem addNodes_eq_ok {g g' : Graph} {count : UInt32} {span : NodeSpan}
    (hadd : g.addNodes count = .ok (g', span)) :
    ∃ a, g.adjacency.addNodes count = .ok (a, span) ∧ g' = { g with adjacency := a } := by
  unfold addNodes at hadd
  split at hadd
  · cases hadd
  · obtain ⟨⟨a, span'⟩, hnodes, hdone⟩ := bind_eq_ok_iff.1 hadd
    cases hdone
    exact ⟨a, hnodes, rfl⟩

theorem WellFormed.addNode {g g' : Graph} (hwell : g.WellFormed) {m : NodeId}
    (hadd : g.addNode = .ok (g', m)) : g'.WellFormed ∧ g'.hasNode m = true := by
  obtain ⟨a, span, hnodes, rfl, rfl⟩ := addNode_eq_ok hadd
  refine ⟨hwell.addNodes hnodes, ?_⟩
  obtain ⟨hfits, rfl, rfl⟩ := (Adjacency.addNodes_eq_ok_iff _ _ _ _).1 hnodes
  rw [hasNode, Adjacency.hasNode_iff, Adjacency.toNat_nodeCount_add hfits]
  exact Nat.lt_succ_self _

theorem WellFormed.addNodesWith {g g' : Graph} (hwell : g.WellFormed)
    {lists : List (List (String × Value))} {span : NodeSpan}
    (hadd : g.addNodesWith lists = .ok (g', span)) : g'.WellFormed := by
  unfold Graph.addNodesWith at hadd
  split at hadd
  · cases hadd
  · obtain ⟨⟨g₁, span₁⟩, hnodes, hdone⟩ := bind_eq_ok_iff.1 hadd
    cases hdone
    obtain ⟨a, hspan, rfl⟩ := addNodes_eq_ok hnodes
    refine WellFormed.putAllNodeValues _ (hwell.addNodes hspan) ?_
    intro entry hentry
    exact hasNode_of_mem_span hspan (List.of_mem_zip hentry).1

/-! ## Edges -/

theorem requireEndpoints_eq_ok_iff (g : Graph) (u v : NodeId) :
    g.requireEndpoints u v = .ok () ↔ g.hasNode u = true ∧ g.hasNode v = true := by
  unfold requireEndpoints Adjacency.requireNode hasNode
  by_cases hu : g.adjacency.hasNode u = true
  · by_cases hv : g.adjacency.hasNode v = true <;> simp [hu, hv]
  · simp [hu]

/-- Between nodes that exist, an edge is added unless its pair is full. -/
theorem addEdge_of_hasNode {g : Graph} {u v : NodeId} (hu : g.hasNode u = true)
    (hv : g.hasNode v = true) :
    g.addEdge u v =
      if g.adjacency.isFull u v then .error .overflow
      else .ok ({ g with adjacency := g.adjacency.withEdge u v },
        ⟨u, v, g.adjacency.nextKey u v⟩) := by
  unfold addEdge
  rw [(requireEndpoints_eq_ok_iff g u v).2 ⟨hu, hv⟩, Adjacency.link_eq]
  cases g.adjacency.isFull u v <;> rfl

theorem addEdge_eq_ok_iff (g g' : Graph) (u v : NodeId) (e : EdgeId) :
    g.addEdge u v = .ok (g', e) ↔
      (g.hasNode u = true ∧ g.hasNode v = true) ∧ g.adjacency.isFull u v = false ∧
        g' = { g with adjacency := g.adjacency.withEdge u v } ∧
        e = ⟨u, v, g.adjacency.nextKey u v⟩ := by
  constructor
  · intro hadd
    obtain ⟨⟨⟩, hendpoints, -⟩ := bind_eq_ok_iff.1 hadd
    have hnodes := (requireEndpoints_eq_ok_iff g u v).1 (Fault.lift_eq_ok_iff.1 hendpoints)
    rw [addEdge_of_hasNode hnodes.1 hnodes.2] at hadd
    cases hfull : g.adjacency.isFull u v with
    | true =>
      rw [hfull] at hadd
      cases hadd
    | false =>
      rw [hfull] at hadd
      cases hadd
      exact ⟨hnodes, rfl, rfl, rfl⟩
  · rintro ⟨⟨hu, hv⟩, hfull, rfl, rfl⟩
    rw [addEdge_of_hasNode hu hv, hfull]
    rfl

/-- A new edge between nodes that exist. -/
theorem WellFormed.withEdge {g : Graph} (hwell : g.WellFormed) {u v : NodeId}
    (hu : g.hasNode u = true) (hv : g.hasNode v = true)
    (hfull : g.adjacency.isFull u v = false) :
    ({ g with adjacency := g.adjacency.withEdge u v } : Graph).WellFormed where
  adjacency := hwell.adjacency.withEdge hu hv hfull
  nodeProperties := hwell.nodeProperties
  edgeProperties := hwell.edgeProperties.mono fun _ => Adjacency.hasEdge_withEdge_of_hasEdge hfull

/-- Values on an edge that exists. -/
theorem WellFormed.putEdgeValues {g : Graph} (hwell : g.WellFormed) {e : EdgeId}
    (he : g.hasEdge e = true) (values : List (String × Value)) :
    ({ g with edgeCatalog := g.edgeCatalog.putMany e values } : Graph).WellFormed where
  adjacency := hwell.adjacency
  nodeProperties := hwell.nodeProperties
  edgeProperties := hwell.edgeProperties.putMany he values

theorem WellFormed.addEdge {g g' : Graph} (hwell : g.WellFormed) {u v : NodeId} {e : EdgeId}
    (hadd : g.addEdge u v = .ok (g', e)) : g'.WellFormed := by
  obtain ⟨⟨hu, hv⟩, hfull, rfl, rfl⟩ := (addEdge_eq_ok_iff _ _ _ _ _).1 hadd
  exact hwell.withEdge hu hv hfull

theorem WellFormed.addEdgeWith {g g' : Graph} (hwell : g.WellFormed) {u v : NodeId}
    {values : List (String × Value)} {e : EdgeId} (hadd : g.addEdgeWith u v values = .ok (g', e)) :
    g'.WellFormed := by
  unfold Graph.addEdgeWith at hadd
  obtain ⟨⟨g₁, e₁⟩, hedge, hdone⟩ := bind_eq_ok_iff.1 hadd
  have hwell₁ := hwell.addEdge hedge
  obtain ⟨-, -, rfl, rfl⟩ := (addEdge_eq_ok_iff _ _ _ _ _).1 hedge
  cases hdone
  exact hwell₁.putEdgeValues (Adjacency.hasEdge_withEdge_self _ u v) values

/-- Edges one after another. -/
theorem WellFormed.addEdgesInOrder (list : List (NodeId × NodeId × List (String × Value)))
    {g g' : Graph} (hwell : g.WellFormed) {es : List EdgeId}
    (hadd : g.addEdgesInOrder list = .ok (g', es)) : g'.WellFormed := by
  induction list generalizing g es with
  | nil =>
    cases hadd
    exact hwell
  | cons entry list ih =>
    obtain ⟨u, v, values⟩ := entry
    unfold Graph.addEdgesInOrder at hadd
    obtain ⟨⟨g₁, e⟩, hfirst, hrest⟩ := bind_eq_ok_iff.1 hadd
    obtain ⟨⟨g₂, es₂⟩, hmore, hdone⟩ := bind_eq_ok_iff.1 hrest
    cases hdone
    exact ih (hwell.addEdgeWith hfirst) hmore

theorem WellFormed.addEdges {g g' : Graph} (hwell : g.WellFormed)
    {list : List (NodeId × NodeId × List (String × Value))} {es : List EdgeId}
    (hadd : g.addEdges list = .ok (g', es)) : g'.WellFormed := by
  unfold Graph.addEdges at hadd
  obtain ⟨⟨⟩, -, hedges⟩ := bind_eq_ok_iff.1 hadd
  exact hwell.addEdgesInOrder list hedges

/-! ## Properties and attributes -/

theorem WellFormed.declareNodeProperty {g : Graph} (hwell : g.WellFormed) (name : String)
    (default : Value) : (g.declareNodeProperty name default).1.WellFormed where
  adjacency := hwell.adjacency
  nodeProperties := hwell.nodeProperties.declare name default
  edgeProperties := hwell.edgeProperties

theorem WellFormed.declareEdgeProperty {g : Graph} (hwell : g.WellFormed) (name : String)
    (default : Value) : (g.declareEdgeProperty name default).1.WellFormed where
  adjacency := hwell.adjacency
  nodeProperties := hwell.nodeProperties
  edgeProperties := hwell.edgeProperties.declare name default

/-- Another catalog of node properties that is in order. -/
theorem WellFormed.withNodeCatalog {g : Graph} (hwell : g.WellFormed) {c : Catalog NodeId}
    (hwithin : c.Within g.hasNode) : ({ g with nodeCatalog := c } : Graph).WellFormed where
  adjacency := hwell.adjacency
  nodeProperties := hwithin
  edgeProperties := hwell.edgeProperties

/-- Another catalog of edge properties that is in order. -/
theorem WellFormed.withEdgeCatalog {g : Graph} (hwell : g.WellFormed) {c : Catalog EdgeId}
    (hwithin : c.Within g.hasEdge) :
    ({ g with edgeCatalog := c } : Graph).WellFormed where
  adjacency := hwell.adjacency
  nodeProperties := hwell.nodeProperties
  edgeProperties := hwithin

theorem WellFormed.setNodeValue {g g' : Graph} (hwell : g.WellFormed) {h : Handle NodeId}
    {m : NodeId} {v : Value} (hset : g.setNodeValue h m v = .ok g') : g'.WellFormed := by
  obtain ⟨⟨c, previous⟩, hwrite, hdone⟩ := bind_eq_ok_iff.1 hset
  cases hdone
  exact hwell.withNodeCatalog (hwell.nodeProperties.write (fun _ he => he) hwrite)

theorem WellFormed.setNodeValueByName {g g' : Graph} (hwell : g.WellFormed)
    {name : String} {m : NodeId} {v : Value} (hset : g.setNodeValueByName name m v = .ok g') :
    g'.WellFormed := by
  obtain ⟨⟨c, previous⟩, hwrite, hdone⟩ := bind_eq_ok_iff.1 hset
  cases hdone
  exact hwell.withNodeCatalog (hwell.nodeProperties.writeByName (fun _ he => he) hwrite)

theorem WellFormed.setEdgeValue {g g' : Graph} (hwell : g.WellFormed) {h : Handle EdgeId}
    {e : EdgeId} {v : Value} (hset : g.setEdgeValue h e v = .ok g') : g'.WellFormed := by
  obtain ⟨⟨c, previous⟩, hwrite, hdone⟩ := bind_eq_ok_iff.1 hset
  cases hdone
  exact hwell.withEdgeCatalog
    (hwell.edgeProperties.write (fun _ he => he) hwrite)

theorem WellFormed.setEdgeValueByName {g g' : Graph} (hwell : g.WellFormed)
    {name : String} {e : EdgeId} {v : Value} (hset : g.setEdgeValueByName name e v = .ok g') :
    g'.WellFormed := by
  obtain ⟨⟨c, previous⟩, hwrite, hdone⟩ := bind_eq_ok_iff.1 hset
  cases hdone
  exact hwell.withEdgeCatalog
    (hwell.edgeProperties.writeByName (fun _ he => he) hwrite)

/-! ## Histories -/

/-- A request that succeeds. -/
theorem WellFormed.perform {g g' : Graph} (hwell : g.WellFormed) {r : Request} {reply : Reply}
    (hperform : r.perform g = .ok (g', reply)) : g'.WellFormed := by
  cases r with
  | addNode =>
    obtain ⟨⟨g₁, m⟩, hadd, hdone⟩ := Fault.lift_map_eq_ok_iff.1 hperform
    cases hdone
    exact (hwell.addNode hadd).1
  | addNodeWith values =>
    obtain ⟨⟨g₁, m⟩, hadd, hdone⟩ := Fault.lift_map_eq_ok_iff.1 hperform
    cases hdone
    obtain ⟨⟨g₂, m₂⟩, hnode, hdone⟩ := bind_eq_ok_iff.1 hadd
    cases hdone
    obtain ⟨hwell₂, hm⟩ := hwell.addNode hnode
    exact hwell₂.putNodeValues hm values
  | addNodes count =>
    obtain ⟨⟨g₁, span⟩, hadd, hdone⟩ := Fault.lift_map_eq_ok_iff.1 hperform
    cases hdone
    obtain ⟨a, hspan, rfl⟩ := addNodes_eq_ok hadd
    exact hwell.addNodes hspan
  | addNodesWith lists =>
    obtain ⟨⟨g₁, span⟩, hadd, hdone⟩ := Fault.lift_map_eq_ok_iff.1 hperform
    cases hdone
    exact hwell.addNodesWith hadd
  | removeNode m => cases hperform
  | addEdge u v =>
    obtain ⟨⟨g₁, e⟩, hadd, hdone⟩ := map_eq_ok_iff.1 hperform
    cases hdone
    exact hwell.addEdge hadd
  | addEdgeWith u v values =>
    obtain ⟨⟨g₁, e⟩, hadd, hdone⟩ := map_eq_ok_iff.1 hperform
    cases hdone
    exact hwell.addEdgeWith hadd
  | addEdges list =>
    obtain ⟨⟨g₁, es⟩, hadd, hdone⟩ := map_eq_ok_iff.1 hperform
    cases hdone
    exact hwell.addEdges hadd
  | removeEdge e => cases hperform
  | declareNodeProperty name default =>
    cases hperform
    exact hwell.declareNodeProperty name default
  | declareEdgeProperty name default =>
    cases hperform
    exact hwell.declareEdgeProperty name default
  | setNodeValue h m v =>
    obtain ⟨g₁, hset, hdone⟩ := Fault.lift_map_eq_ok_iff.1 hperform
    cases hdone
    exact hwell.setNodeValue hset
  | setNodeValueByName name m v =>
    obtain ⟨g₁, hset, hdone⟩ := Fault.lift_map_eq_ok_iff.1 hperform
    cases hdone
    exact hwell.setNodeValueByName hset
  | setEdgeValue h e v =>
    obtain ⟨g₁, hset, hdone⟩ := Fault.lift_map_eq_ok_iff.1 hperform
    cases hdone
    exact hwell.setEdgeValue hset
  | setEdgeValueByName name e v =>
    obtain ⟨g₁, hset, hdone⟩ := Fault.lift_map_eq_ok_iff.1 hperform
    cases hdone
    exact hwell.setEdgeValueByName hset
  | setAttribute name v =>
    cases hperform
    exact { hwell with }
  | clear owner =>
    cases hperform
    exact wellFormed_empty owner
  | clone =>
    cases hperform
    exact hwell

/-- One request of a history, whatever comes of it. -/
theorem WellFormed.apply {g : Graph} (hwell : g.WellFormed) (r : Request) :
    (r.apply g).WellFormed :=
  Request.apply_keeps hwell fun _ _ => hwell.perform

/-- A whole history. -/
theorem WellFormed.run (requests : List Request) {g : Graph} (hwell : g.WellFormed) :
    (g.run requests).WellFormed := by
  induction requests generalizing g with
  | nil => exact hwell
  | cons r rs ih => exact ih (hwell.apply r)

/-- Every history ends in a well-formed graph, whatever comes of its requests. -/
theorem wellFormed_run {g : Graph} (horigin : g.Origin) (requests : List Request) :
    (g.run requests).WellFormed :=
  horigin.wellFormed.run requests

/-- A history from parts, with parallel edges, a loop, values, a batch that is refused,
an edge for which there is no key and a write that is refused. -/
theorem wellFormed_run_of_parts :
    ∃ g, ofParts ⟨0⟩ 2 [(⟨0⟩, ⟨1⟩, 1), (⟨1⟩, ⟨1⟩, 0xFFFFFFFF)]
        [.ofValues "state" .null [(⟨1⟩, .int 5)]] [] .empty = .ok g ∧
      (g.run [.addNode, .declareEdgeProperty "action" .null,
        .addEdgeWith ⟨0⟩ ⟨1⟩ [("action", .int 1)],
        .addEdges [(⟨2⟩, ⟨2⟩, []), (⟨2⟩, ⟨3⟩, [])], .addEdge ⟨2⟩ ⟨2⟩, .addEdge ⟨1⟩ ⟨1⟩,
        .setEdgeValueByName "action" ⟨⟨0⟩, ⟨1⟩, 3⟩ .null]).WellFormed := by
  refine ⟨_, rfl, ?_⟩
  have hmade : ofParts ⟨0⟩ 2 [(⟨0⟩, ⟨1⟩, 1), (⟨1⟩, ⟨1⟩, 0xFFFFFFFF)]
    [.ofValues "state" .null [(⟨1⟩, .int 5)]] [] .empty = .ok _ := rfl
  exact wellFormed_run (.parts hmade) _

end Graph

end StateGraph
