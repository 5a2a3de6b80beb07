import StateGraph.Graph.Export
import StateGraph.Proofs.EdgeViews

set_option autoImplicit false

/-!
# What is exported

A graph is exported by filling a container with it, node by node and then edge by edge
(`Graph.exportInto`).  The container is foreign; `Container.Numbers` says what is relied on:
nodes and edges that are only ever added are numbered from 0 on, and are found under their
numbers as they were added.

The values that are exported are looked up without asking whether the element exists.  They
are the values that are read (`Catalog.spells_attributesOf`), because only elements of the
graph are exported and properties are filed under their own names.
-/

namespace StateGraph

/-! ## Containers of graphs -/

/-- What an edge carries into a container. -/
structure ExportedEdge where
  key : UInt32
  attributes : Attributes
  deriving DecidableEq

/-- A container `κ` of graphs whose nodes carry `ν` and whose edges carry `ε`.  Adding yields
the number of what was added, or nothing if it is refused. -/
structure Container (κ ν ε : Type) where
  empty : κ
  addNode : κ → ν → Option (κ × Nat)
  addEdge : κ → Nat → Nat → ε → Option (κ × Nat)
  nodeCount : κ → Nat
  edgeCount : κ → Nat
  node? : κ → Nat → Option ν
  /-- the endpoints of an edge and what it carries -/
  edge? : κ → Nat → Option (Nat × Nat × ε)

namespace Container

variable {κ ν ε : Type} {C : Container κ ν ε}

/-- The most nodes, and the most edges, that 32-bit numbers allow for: the last number marks
the end. -/
def capacity : Nat := 2 ^ 32 - 1

/-- A container into which nodes and edges were put, one after another, and from which
nothing was removed. -/
inductive Filled (C : Container κ ν ε) : κ → List ν → List (Nat × Nat × ε) → Prop where
  | empty : Filled C C.empty [] []
  | addNode {s s' : κ} {ns : List ν} {es : List (Nat × Nat × ε)} {w : ν} {i : Nat}
      (before : Filled C s ns es) (added : C.addNode s w = some (s', i)) :
      Filled C s' (ns ++ [w]) es
  | addEdge {s s' : κ} {ns : List ν} {es : List (Nat × Nat × ε)} {u v : Nat} {w : ε} {i : Nat}
      (before : Filled C s ns es) (added : C.addEdge s u v w = some (s', i)) :
      Filled C s' ns (es ++ [(u, v, w)])

/-- Nodes and edges are numbered consecutively as long as there is room for them, and are
found under their numbers. -/
structure Numbers (C : Container κ ν ε) : Prop where
  addNode : ∀ {s ns es}, Filled C s ns es → ns.length < capacity → ∀ w,
    ∃ s', C.addNode s w = some (s', ns.length)
  addEdge : ∀ {s ns es}, Filled C s ns es → es.length < capacity → ∀ u v w,
    u < ns.length → v < ns.length → ∃ s', C.addEdge s u v w = some (s', es.length)
  nodeCount : ∀ {s ns es}, Filled C s ns es → C.nodeCount s = ns.length
  edgeCount : ∀ {s ns es}, Filled C s ns es → C.edgeCount s = es.length
  node? : ∀ {s ns es}, Filled C s ns es → ∀ i, C.node? s i = ns[i]?
  edge? : ∀ {s ns es}, Filled C s ns es → ∀ i, C.edge? s i = es[i]?

/-- Two lists, one of the nodes and one of the edges. -/
def listed (ν ε : Type) : Container (List ν × List (Nat × Nat × ε)) ν ε where
  empty := ([], [])
  addNode s w := if s.1.length < capacity then some ((s.1 ++ [w], s.2), s.1.length) else none
  addEdge s u v w :=
    if u < s.1.length ∧ v < s.1.length ∧ s.2.length < capacity then
      some ((s.1, s.2 ++ [(u, v, w)]), s.2.length)
    else none
  nodeCount s := s.1.length
  edgeCount s := s.2.length
  node? s i := s.1[i]?
  edge? s i := s.2[i]?

theorem Filled.eq_listed {s : List ν × List (Nat × Nat × ε)} {ns : List ν}
    {es : List (Nat × Nat × ε)} (hfilled : (listed ν ε).Filled s ns es) : s = (ns, es) := by
  induction hfilled with
  | empty => rfl
  | addNode before added ih =>
    subst ih
    obtain ⟨-, heq⟩ := Option.ite_none_right_eq_some.1 added
    exact (congrArg Prod.fst (Option.some.inj heq)).symm
  | addEdge before added ih =>
    subst ih
    obtain ⟨-, heq⟩ := Option.ite_none_right_eq_some.1 added
    exact (congrArg Prod.fst (Option.some.inj heq)).symm

theorem numbers_listed (ν ε : Type) : (listed ν ε).Numbers where
  addNode hfilled hroom w := by
    cases hfilled.eq_listed
    exact ⟨_, if_pos hroom⟩
  addEdge hfilled hroom u v w hu hv := by
    cases hfilled.eq_listed
    exact ⟨_, if_pos ⟨hu, hv, hroom⟩⟩
  nodeCount hfilled := by
    cases hfilled.eq_listed
    rfl
  edgeCount hfilled := by
    cases hfilled.eq_listed
    rfl
  node? hfilled i := by
    cases hfilled.eq_listed
    rfl
  edge? hfilled i := by
    cases hfilled.eq_listed
    rfl

end Container

/-! ## Filling a container -/

/-- A loop that adds one item in every round, as long as there is room, ends with all of
them added in order. -/
theorem exists_foldlM_of_room {κ α β : Type} {f : κ → α → Option κ} {item : α → β}
    (holds : κ → List β → Prop) (room : Nat) (l : List α)
    (hstep : ∀ s done, holds s done → done.length < room → ∀ a ∈ l,
      ∃ s', f s a = some s' ∧ holds s' (done ++ [item a]))
    {s : κ} {done : List β} (hs : holds s done) (hroom : done.length + l.length ≤ room) :
    ∃ s', l.foldlM f s = some s' ∧ holds s' (done ++ l.map item) := by
  induction l generalizing s done with
  | nil => exact ⟨s, rfl, by simpa using hs⟩
  | cons a l ih =>
    rw [List.length_cons] at hroom
    obtain ⟨s', hfirst, hs'⟩ := hstep s done hs (by omega) a List.mem_cons_self
    obtain ⟨s'', hrest, hs''⟩ := ih
      (fun s done hs hless b hb => hstep s done hs hless b (List.mem_cons_of_mem a hb)) hs'
      (by rw [List.length_append, List.length_singleton]; omega)
    refine ⟨s'', ?_, ?_⟩
    · rw [List.foldlM_cons, hfirst]
      exact hrest
    · rwa [List.append_assoc, List.singleton_append] at hs''

namespace Graph

variable {κ : Type} (C : Container κ Attributes ExportedEdge) (g : Graph)

/-- Puts a node into the container. -/
def exportNode (s : κ) (n : NodeId) : Option κ :=
  (C.addNode s (g.nodeCatalog.attributesOf n)).map Prod.fst

/-- The edge as it is put into the container. -/
def exportedEdge (e : EdgeId) : Nat × Nat × ExportedEdge :=
  (e.source.index.toNat, e.target.index.toNat, ⟨e.key, g.edgeCatalog.attributesOf e⟩)

/-- Puts an edge into the container. -/
def exportEdge (s : κ) (e : EdgeId) : Option κ :=
  (C.addEdge s (g.exportedEdge e).1 (g.exportedEdge e).2.1 (g.exportedEdge e).2.2).map Prod.fst

/-- Fills a container with the graph: all nodes, and then all edges. -/
def exportInto : Option κ := do
  let s ← g.nodes.toList.foldlM (g.exportNode C) C.empty
  g.edges.foldlM (g.exportEdge C) s

variable {C g}

/-- One node more. -/
theorem filled_exportNode (hnumbers : C.Numbers) {s : κ} {ns : List Attributes}
    {es : List (Nat × Nat × ExportedEdge)} (hfilled : C.Filled s ns es)
    (hroom : ns.length < Container.capacity) (n : NodeId) :
    ∃ s', g.exportNode C s n = some s' ∧
      C.Filled s' (ns ++ [g.nodeCatalog.attributesOf n]) es := by
  obtain ⟨s', hadded⟩ := hnumbers.addNode hfilled hroom (g.nodeCatalog.attributesOf n)
  refine ⟨s', ?_, hfilled.addNode hadded⟩
  rw [exportNode, hadded]
  rfl

/-- One edge more, between nodes that are there. -/
theorem filled_exportEdge (hnumbers : C.Numbers) {s : κ} {ns : List Attributes}
    {es : List (Nat × Nat × ExportedEdge)} (hfilled : C.Filled s ns es)
    (hroom : es.length < Container.capacity) {e : EdgeId}
    (hsource : e.source.index.toNat < ns.length) (htarget : e.target.index.toNat < ns.length) :
    ∃ s', g.exportEdge C s e = some s' ∧ C.Filled s' ns (es ++ [g.exportedEdge e]) := by
  obtain ⟨s', hadded⟩ := hnumbers.addEdge hfilled hroom _ _ (g.exportedEdge e).2.2 hsource htarget
  exact ⟨s', congrArg (Option.map Prod.fst) hadded, hfilled.addEdge hadded⟩

/-- A graph fits into a container unless it has too many edges: there are never too many
nodes. -/
theorem exists_filled_exportInto (hnumbers : C.Numbers) (hsound : g.adjacency.Sound)
    (hfew : g.edges.length ≤ Container.capacity) :
    ∃ s, g.exportInto C = some s ∧
      C.Filled s (g.nodes.toList.map g.nodeCatalog.attributesOf) (g.edges.map g.exportedEdge) := by
  have hnodes : g.nodes.toList.length ≤ Container.capacity := by
    have hlt := g.adjacency.nodeCount.toNat_lt
    rw [nodes, Adjacency.length_nodes, Container.capacity]
    omega
  obtain ⟨s, hfirst, hs⟩ := exists_foldlM_of_room
    (fun s ns => C.Filled s ns []) Container.capacity g.nodes.toList
    (fun s ns hs hroom n _ => filled_exportNode hnumbers hs hroom n) Container.Filled.empty
    (by simpa using hnodes)
  rw [List.nil_append] at hs
  have hendpoint : ∀ n, g.hasNode n = true →
      n.index.toNat < (g.nodes.toList.map g.nodeCatalog.attributesOf).length := by
    intro n hn
    rw [List.length_map, nodes, Adjacency.length_nodes]
    exact (Adjacency.hasNode_iff g.adjacency n).1 hn
  obtain ⟨s', hrest, hs'⟩ := exists_foldlM_of_room
    (fun s es => C.Filled s (g.nodes.toList.map g.nodeCatalog.attributesOf) es)
    Container.capacity g.edges
    (fun s es hs hroom e he => filled_exportEdge hnumbers hs hroom (e := e)
      (hendpoint e.source (hsound.endpoints_of_mem_edges he).1)
      (hendpoint e.target (hsound.endpoints_of_mem_edges he).2)) hs
    (by simpa using hfew)
  refine ⟨s', ?_, by simpa using hs'⟩
  rw [exportInto, hfirst]
  exact hrest

end Graph

/-! ## Values -/

/-- The attributes list the given names in order, each with the value that is read. -/
structure Attributes.Spell (a : Attributes) (names : List String)
    (read : String → Except GraphError Value) : Prop where
  keys : a.keys = names
  values : ∀ name v, (name, v) ∈ a.toList → read name = .ok v

namespace Catalog

variable {ε : Type} [DecidableEq ε]

/-- The names of the properties are those under which they are filed, so no attribute hides
another one. -/
theorem Within.toList_attributesOf {exists? : ε → Bool} {c : Catalog ε}
    (hwithin : c.Within exists?) (e : ε) :
    (c.attributesOf e).toList = c.properties.toList.map fun x => (x.1, x.2.valueOf e) := by
  have hlist : (c.toList.map fun p => (p.name, p.valueOf e)) =
      c.properties.toList.map fun x => (x.1, x.2.valueOf e) := by
    rw [← hwithin.map_toList, List.map_map]
    rfl
  rw [attributesOf, hlist]
  refine OrderedMap.toList_ofList ?_
  rw [List.map_map]
  exact c.properties.distinct

/-- The attributes of an existing element are those that are read, one by one. -/
theorem spells_attributesOf [Element ε] {vouched exists? : ε → Bool} {c : Catalog ε}
    (hwithin : c.Within vouched) {e : ε} (he : exists? e = true) :
    (c.attributesOf e).Spell c.names fun name => c.readByName exists? name e where
  keys := by
    show (c.attributesOf e).toList.map Prod.fst = _
    rw [hwithin.toList_attributesOf, List.map_map]
    rfl
  values name v hmem := by
    rw [hwithin.toList_attributesOf] at hmem
    obtain ⟨x, hx, heq⟩ := List.mem_map.1 hmem
    cases heq
    have hget := (OrderedMap.get?_eq_some_iff c.properties x.1 x.2).2 hx
    exact readByName_of_byName (byName_eq_ok_iff.2 hget) he

end Catalog

/-! ## Exports of graphs -/

namespace Graph

variable {κ : Type}

/-- A container holds a graph: each node at its number, each edge of the graph at one place in
the order of all edges, and nothing else.  Attributes are spelled out with the values that the
graph gives. -/
structure Exported (C : Container κ Attributes ExportedEdge) (g : Graph) (s : κ) : Prop where
  nodeCount : C.nodeCount s = g.nodeCount
  edgeCount : C.edgeCount s = g.edges.length
  node : ∀ n, g.hasNode n = true → ∃ a, C.node? s n.index.toNat = some a ∧
    a.Spell g.nodeCatalog.names fun name => g.nodeValueByName name n
  noNode : ∀ i, g.nodeCount ≤ i → C.node? s i = none
  edge : ∀ i e, g.edges[i]? = some e → ∃ a,
    C.edge? s i = some (e.source.index.toNat, e.target.index.toNat, ⟨e.key, a⟩) ∧
    a.Spell g.edgeCatalog.names fun name => g.edgeValueByName name e
  noEdge : ∀ i, g.edges.length ≤ i → C.edge? s i = none
  once : ∀ e, g.hasEdge e = true → ∃! i : Nat, g.edges[i]? = some e
  /-- the list of what is exported says the same -/
  nodes : ∀ i, C.node? s i = g.toExport.nodes[i]?
  edges : ∀ i, C.edge? s i = (g.toExport.edges[i]?).map fun x =>
    (x.1.source.index.toNat, x.1.target.index.toNat, ⟨x.1.key, x.2⟩)

/-- A container that was filled with the nodes and edges of a graph holds the graph. -/
theorem exported_of_filled {C : Container κ Attributes ExportedEdge} (hnumbers : C.Numbers)
    {g : Graph} (hwell : g.WellFormed) {s : κ}
    (hfilled : C.Filled s (g.nodes.toList.map g.nodeCatalog.attributesOf)
      (g.edges.map g.exportedEdge)) : g.Exported C s where
  nodeCount := by
    rw [hnumbers.nodeCount hfilled, List.length_map, nodes, Adjacency.length_nodes]
    rfl
  edgeCount := by
    rw [hnumbers.edgeCount hfilled, List.length_map]
  node n hn := by
    refine ⟨g.nodeCatalog.attributesOf n, ?_,
      Catalog.spells_attributesOf hwell.nodeProperties hn⟩
    rw [hnumbers.node? hfilled, List.getElem?_map, nodes, Adjacency.getElem?_nodes hn]
    rfl
  noNode i hi := by
    rw [hnumbers.node? hfilled, List.getElem?_eq_none_iff, List.length_map, nodes,
      Adjacency.length_nodes]
    exact hi
  edge i e he := by
    have hexists : g.hasEdge e = true :=
      (Adjacency.mem_edges_iff g.adjacency e).1 (List.mem_of_getElem? he)
    refine ⟨g.edgeCatalog.attributesOf e, ?_,
      Catalog.spells_attributesOf hwell.edgeProperties hexists⟩
    rw [hnumbers.edge? hfilled, List.getElem?_map, he]
    rfl
  noEdge i hi := by
    rw [hnumbers.edge? hfilled, List.getElem?_eq_none_iff, List.length_map]
    exact hi
  once e he := by
    obtain ⟨i, hi⟩ := List.getElem?_of_mem ((Adjacency.mem_edges_iff g.adjacency e).2 he)
    refine ⟨i, hi, fun j hj => ?_⟩
    have hlt : j < g.edges.length := (List.getElem?_eq_some_iff.1 hj).1
    exact (List.getElem?_inj hlt (Adjacency.nodup_edges g.adjacency)).1 (hj.trans hi.symm)
  nodes i := hnumbers.node? hfilled i
  edges i := by
    rw [hnumbers.edge? hfilled, toExport, List.getElem?_map, List.getElem?_map, Option.map_map]
    rfl

/-- Every graph that a history leads to is exported as it is, unless it has more edges than the
container has numbers for. -/
theorem exported_run {C : Container κ Attributes ExportedEdge} (hnumbers : C.Numbers) {g : Graph}
    (horigin : g.Origin) (requests : List Request)
    (hfew : (g.run requests).edges.length ≤ Container.capacity) :
    ∃ s, (g.run requests).exportInto C = some s ∧ (g.run requests).Exported C s := by
  have hwell : (g.run requests).WellFormed := horigin.wellFormed.run requests
  obtain ⟨s, hexport, hfilled⟩ := exists_filled_exportInto hnumbers hwell.adjacency.toSound hfew
  exact ⟨s, hexport, exported_of_filled hnumbers hwell hfilled⟩

/-- Two nodes with two edges between them, one of which has a value of its own. -/
def parallel : List Request :=
  [.declareNodeProperty "state" .null, .declareEdgeProperty "action" .null,
    .declareEdgeProperty "prob" (.int (-1)), .addNodeWith [("state", .text "a")], .addNode,
    .addEdgeWith ⟨0⟩ ⟨1⟩ [("action", .text "go")],
    .addEdgeWith ⟨0⟩ ⟨1⟩ [("prob", .int 1), ("action", .text "go")]]

theorem exported_run_parallel :
    ((empty ⟨0⟩).run parallel).edges.length ≤ Container.capacity ∧
      ((empty ⟨0⟩).run parallel).Exported (.listed Attributes ExportedEdge)
        ([.ofList [("state", .text "a")], .ofList [("state", .null)]],
          [(0, 1, ⟨0, .ofList [("action", .text "go"), ("prob", .int (-1))]⟩),
            (0, 1, ⟨1, .ofList [("action", .text "go"), ("prob", .int 1)]⟩)]) := by
  have hfew : ((empty ⟨0⟩).run parallel).edges.length ≤ Container.capacity := by decide
  obtain ⟨s, hexport, hexported⟩ :=
    exported_run (Container.numbers_listed Attributes ExportedEdge) (.new ⟨0⟩) parallel hfew
  have hresult : ((empty ⟨0⟩).run parallel).exportInto (.listed Attributes ExportedEdge) =
      some ([.ofList [("state", .text "a")], .ofList [("state", .null)]],
        [(0, 1, ⟨0, .ofList [("action", .text "go"), ("prob", .int (-1))]⟩),
          (0, 1, ⟨1, .ofList [("action", .text "go"), ("prob", .int 1)]⟩)]) := by
    decide +kernel
  cases hexport.symm.trans hresult
  exact ⟨hfew, hexported⟩

end Graph

end StateGraph
