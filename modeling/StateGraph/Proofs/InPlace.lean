import StateGraph.Proofs.Growth
import StateGraph.Proofs.WellFormed

set_option autoImplicit false

/-!
# Graphs that are changed in place

A request to a graph yields a new graph or an error, so it cannot fail halfway.  A program
that keeps one graph and changes it bit by bit can: what it has changed when it fails stays
changed.  Here each request is such a program, with its looks at the graph and its writes
to it in the order in which they are done, and with batches that go over their elements one
by one.

No request is refused after its first write, so each ends as the request on values does,
and leaves the graph as it was if it is refused.  An overflow is different.  A batch of edges
looks at all endpoints before its first write but not at the keys, and if one of its edges
has no key, the edges before it stay (`Request.outcome_inPlace`).
-/

namespace StateGraph

/-- A program on one graph, which it changes in place.  What was changed before a failure
stays changed. -/
abbrev InPlace (α : Type) : Type := ExceptT (Fault GraphError) (StateM Graph) α

/-- Where a graph keeps the properties of one kind of element. -/
structure Shelf (ε : Type) where
  catalog : Graph → Catalog ε
  stored : Graph → Catalog ε → Graph
  exists? : Graph → ε → Bool
  catalog_stored : ∀ g c, catalog (stored g c) = c
  stored_stored : ∀ g c d, stored (stored g c) d = stored g d
  stored_catalog : ∀ g, stored g (catalog g) = g

/-- The properties of nodes. -/
def nodeShelf : Shelf NodeId where
  catalog := Graph.nodeCatalog
  stored g c := { g with nodeCatalog := c }
  exists? := Graph.hasNode
  catalog_stored _ _ := rfl
  stored_stored _ _ _ := rfl
  stored_catalog _ := rfl

/-- The properties of edges. -/
def edgeShelf : Shelf EdgeId where
  catalog := Graph.edgeCatalog
  stored g c := { g with edgeCatalog := c }
  exists? := Graph.hasEdge
  catalog_stored _ _ := rfl
  stored_stored _ _ _ := rfl
  stored_catalog _ := rfl

namespace InPlace

variable {α β ε : Type}

/-! ## Programs -/

/-- Looks at the graph. -/
def look (f : Graph → Except GraphError α) : InPlace α := do
  MonadExcept.ofExcept (Fault.lift (f (← get)))

/-- Gives out the next node numbers, if there are enough. -/
def pushNodes (count : UInt32) : InPlace NodeSpan := do
  let (a, span) ← look fun g => g.adjacency.addNodes count
  modify fun g => { g with adjacency := a }
  return span

/-- Adds an edge between nodes that exist, if there is a key for it. -/
def link (u v : NodeId) : InPlace UInt32 := do
  let (a, key) ← MonadExcept.ofExcept (Fault.checked ((← get).adjacency.link u v))
  modify fun g => { g with adjacency := a }
  return key

/-- Fails unless both endpoints exist. -/
def requireEndpoints (u v : NodeId) : InPlace Unit := do
  look fun g => g.adjacency.requireNode u
  look fun g => g.adjacency.requireNode v

/-- Writes values on an element that was just created, one by one. -/
def putMany [DecidableEq ε] (S : Shelf ε) (e : ε) (values : List (String × Value)) : InPlace Unit :=
  values.forM fun (name, v) => modify fun g => S.stored g ((S.catalog g).put name e v)

/-- Writes a property that is looked for in the catalog, on an element that must exist. -/
def write [DecidableEq ε] [Element ε] (S : Shelf ε)
    (find : Catalog ε → Except GraphError (String × Property ε)) (e : ε) (v : Value) :
    InPlace Unit := do
  let (name, p) ← look fun g => find (S.catalog g)
  look fun g => if S.exists? g e then .ok () else .error (Element.membershipError p.name e)
  modify fun g => S.stored g ((S.catalog g).replace name (p.put e v))

/-- Declares a property, unless its name is declared already. -/
def declare (S : Shelf ε) (name : String) (default : Value) : InPlace (Handle ε) :=
  modifyGet fun g =>
    (((S.catalog g).declare name default).2, S.stored g ((S.catalog g).declare name default).1)

/-- Adds one node. -/
def addNode : InPlace NodeId := do
  let span ← pushNodes 1
  return ⟨span.start⟩

/-- Adds one node, then writes values on it. -/
def addNodeWith (values : List (String × Value)) : InPlace NodeId := do
  let n ← addNode
  putMany nodeShelf n values
  return n

/-- Adds several nodes, at least one. -/
def addNodes (count : UInt32) : InPlace NodeSpan := do
  if count = 0 then throw (.refused .noNodes)
  pushNodes count

/-- Adds one node for each list of values, then goes over the lists. -/
def addNodesWith (lists : List (List (String × Value))) : InPlace NodeSpan := do
  if UInt32.size ≤ lists.length then throw (.refused (.tooManyNodeLists lists.length))
  let span ← addNodes lists.length.toUInt32
  (span.toList.zip lists).forM fun (n, values) => putMany nodeShelf n values
  return span

/-- Adds an edge between nodes that must exist. -/
def addEdge (u v : NodeId) : InPlace EdgeId := do
  requireEndpoints u v
  let key ← link u v
  return ⟨u, v, key⟩

/-- Adds an edge, then writes values on it. -/
def addEdgeWith (u v : NodeId) (values : List (String × Value)) : InPlace EdgeId := do
  let e ← addEdge u v
  putMany edgeShelf e values
  return e

/-- Looks at all endpoints, then adds edges with values one by one. -/
def addEdges (list : List (NodeId × NodeId × List (String × Value))) : InPlace (List EdgeId) := do
  list.forM fun (u, v, _) => requireEndpoints u v
  list.mapM fun (u, v, values) => addEdgeWith u v values

end InPlace

/-- A request as a program on one graph. -/
def Request.inPlace : Request → InPlace Reply
  | .addNode => .node <$> InPlace.addNode
  | .addNodeWith values => .node <$> InPlace.addNodeWith values
  | .addNodes count => .span <$> InPlace.addNodes count
  | .addNodesWith lists => .span <$> InPlace.addNodesWith lists
  | .removeNode _ => throw (.refused (.removal .node))
  | .addEdge u v => .edge <$> InPlace.addEdge u v
  | .addEdgeWith u v values => .edge <$> InPlace.addEdgeWith u v values
  | .addEdges list => .edges <$> InPlace.addEdges list
  | .removeEdge _ => throw (.refused (.removal .edge))
  | .declareNodeProperty name default => .nodeHandle <$> InPlace.declare nodeShelf name default
  | .declareEdgeProperty name default => .edgeHandle <$> InPlace.declare edgeShelf name default
  | .setNodeValue h n v => (fun _ => .done) <$> InPlace.write nodeShelf (·.entry h) n v
  | .setNodeValueByName name n v =>
    (fun _ => .done) <$> InPlace.write nodeShelf (fun c => (c.byName name).map (name, ·)) n v
  | .setEdgeValue h e v => (fun _ => .done) <$> InPlace.write edgeShelf (·.entry h) e v
  | .setEdgeValueByName name e v =>
    (fun _ => .done) <$> InPlace.write edgeShelf (fun c => (c.byName name).map (name, ·)) e v
  | .setAttribute name v =>
    .previous <$> modifyGet fun g => ((g.setAttribute name v).2, (g.setAttribute name v).1)
  | .clear owner => (fun _ => .done) <$> set (Graph.empty owner)
  | .clone => pure .done

namespace InPlace

variable {α β ε : Type}

/-! ## How programs end -/

/-- How a program ends on a graph, and the graph that it leaves behind. -/
def outcome (x : InPlace α) (g : Graph) : Except (Fault GraphError) α × Graph :=
  Id.run (StateT.run (ExceptT.run x) g)

/-- How a request on values ends, if it is to leave the graph as it was when it fails. -/
def settle (g : Graph) :
    Except (Fault GraphError) (Graph × α) → Except (Fault GraphError) α × Graph
  | .ok (g', a) => (.ok a, g')
  | .error e => (.error e, g)

theorem outcome_modify (f : Graph → Graph) (g : Graph) :
    (modify f : InPlace PUnit).outcome g = (.ok (), f g) := rfl

theorem outcome_look (f : Graph → Except GraphError α) (g : Graph) :
    (look f).outcome g = (Fault.lift (f g), g) := by
  show outcome (MonadExcept.ofExcept (Fault.lift (f g))) g = _
  cases f g <;> rfl

/-- A program goes on after its first part if this part does not fail, on the graph that it
leaves. -/
theorem outcome_bind (x : InPlace α) (k : α → InPlace β) (g : Graph) :
    (x >>= k).outcome g = match x.outcome g with
      | (.ok a, g') => (k a).outcome g'
      | (.error e, g') => (.error e, g') := by
  show Id.run (StateT.run (ExceptT.run (x >>= k)) g) = _
  rw [ExceptT.run_bind, StateT.run_bind, outcome]
  show (match StateT.run (ExceptT.run x) g with | (r, s) => _) = _
  rcases StateT.run (ExceptT.run x) g with ⟨r, s⟩
  cases r <;> rfl

/-- A program whose first part has no effect if it fails. -/
theorem outcome_bind_of_settle {x : InPlace α}
    {X : Except (Fault GraphError) (Graph × α)} {g : Graph}
    (hx : x.outcome g = settle g X) {k : α → InPlace β} {K : α → Graph → Graph × β}
    (hk : ∀ a g, (k a).outcome g = (.ok (K a g).2, (K a g).1)) :
    (x >>= k).outcome g = settle g (X.map fun r => K r.2 r.1) := by
  rw [outcome_bind, hx]
  cases X with
  | error e => rfl
  | ok r => exact hk r.2 r.1

theorem outcome_map (x : InPlace α) (f : α → β) (g : Graph) :
    (f <$> x).outcome g = ((x.outcome g).1.map f, (x.outcome g).2) := by
  rw [map_eq_pure_bind, outcome_bind]
  rcases x.outcome g with ⟨r, g'⟩
  cases r <;> rfl

/-- What a request that cannot overflow yields in place, under another name. -/
theorem outcome_map_of_settle {x : InPlace α} {X : Except GraphError (Graph × α)} {g : Graph}
    (hx : x.outcome g = settle g (Fault.lift X)) (f : α → β) :
    (f <$> x).outcome g = settle g (Fault.lift (X.map fun r => (r.1, f r.2))) := by
  rw [outcome_map, hx]
  cases X <;> rfl

/-- A look at the graph decides how to go on. -/
theorem outcome_look_bind (f : Graph → Except GraphError α) (k : α → InPlace β) (g : Graph) :
    (look f >>= k).outcome g = match f g with
      | .ok a => (k a).outcome g
      | .error e => (.error (.refused e), g) := by
  rw [outcome_bind, outcome_look]
  cases f g <;> rfl

/-! ## Values -/

theorem outcome_putMany [DecidableEq ε] (S : Shelf ε) (e : ε) (values : List (String × Value))
    (g : Graph) :
    (putMany S e values).outcome g = (.ok (), S.stored g ((S.catalog g).putMany e values)) := by
  induction values generalizing g with
  | nil =>
    show (Except.ok (), g) = (Except.ok (), S.stored g (S.catalog g))
    rw [S.stored_catalog]
  | cons entry values ih =>
    show ((modify fun g => S.stored g ((S.catalog g).put entry.1 e entry.2)) >>= fun _ =>
      putMany S e values).outcome g = _
    rw [outcome_bind, outcome_modify]
    refine (ih _).trans ?_
    rw [S.catalog_stored, S.stored_stored]
    rfl

theorem outcome_write [DecidableEq ε] [Element ε] (S : Shelf ε)
    (find : Catalog ε → Except GraphError (String × Property ε)) (e : ε) (v : Value) (g : Graph) :
    (write S find e v).outcome g = settle g (Fault.lift
      (find (S.catalog g) >>= fun found => found.2.write (S.exists? g) e v >>= fun written =>
        .ok (S.stored g ((S.catalog g).replace found.1 written.1), ()))) := by
  rw [write, outcome_look_bind]
  cases find (S.catalog g) with
  | error error => rfl
  | ok found =>
    refine (outcome_look_bind _ _ g).trans ?_
    rw [ok_bind, Property.write]
    cases S.exists? g e <;> rfl

theorem outcome_writeByHandle [DecidableEq ε] [Element ε] (S : Shelf ε) (h : Handle ε) (e : ε)
    (v : Value) (g : Graph) :
    (write S (fun c => c.entry h) e v).outcome g = settle g (Fault.lift
      (((S.catalog g).write (S.exists? g) h e v).map fun written =>
        (S.stored g written.1, ()))) := by
  rw [outcome_write, Catalog.write]
  cases (S.catalog g).entry h with
  | error error => rfl
  | ok found =>
    rw [ok_bind, ok_bind]
    show _ = settle g (Fault.lift ((found.2.write (S.exists? g) e v >>= _).map _))
    cases found.2.write (S.exists? g) e v <;> rfl

theorem outcome_writeByName [DecidableEq ε] [Element ε] (S : Shelf ε) (name : String) (e : ε)
    (v : Value) (g : Graph) :
    (write S (fun c => (c.byName name).map fun p => (name, p)) e v).outcome g = settle g
      (Fault.lift (((S.catalog g).writeByName (S.exists? g) name e v).map fun written =>
        (S.stored g written.1, ()))) := by
  rw [outcome_write, Catalog.writeByName]
  cases (S.catalog g).byName name with
  | error error => rfl
  | ok p =>
    show settle g (Fault.lift (p.write (S.exists? g) e v >>= _)) =
      settle g (Fault.lift ((p.write (S.exists? g) e v >>= _).map _))
    cases p.write (S.exists? g) e v <;> rfl

/-- A write, as a request that only says that it is done. -/
theorem outcome_done {S : Shelf ε} {x : InPlace Unit} {g : Graph}
    {written : Except GraphError (Catalog ε × Option Value)}
    (hx : x.outcome g = settle g (Fault.lift (written.map fun r => (S.stored g r.1, ())))) :
    ((fun _ => Reply.done) <$> x).outcome g = settle g
      (Fault.lift ((written >>= fun r => .ok (S.stored g r.1)).map fun g => (g, .done))) := by
  rw [outcome_map_of_settle hx]
  cases written <;> rfl

/-! ## Nodes -/

theorem outcome_pushNodes (count : UInt32) (g : Graph) :
    (pushNodes count).outcome g = settle g (Fault.lift
      ((g.adjacency.addNodes count).map fun r => ({ g with adjacency := r.1 }, r.2))) := by
  rw [pushNodes, outcome_look_bind]
  cases g.adjacency.addNodes count <;> rfl

theorem outcome_addNode (g : Graph) : addNode.outcome g = settle g (Fault.lift g.addNode) := by
  rw [addNode]
  refine (outcome_bind_of_settle (outcome_pushNodes 1 g)
    (K := fun s g => (g, NodeId.mk s.start)) fun _ _ => rfl).trans ?_
  rw [Graph.addNode]
  cases g.adjacency.addNodes 1 <;> rfl

theorem outcome_addNodeWith (values : List (String × Value)) (g : Graph) :
    (addNodeWith values).outcome g = settle g (Fault.lift (g.addNodeWith values)) := by
  refine (outcome_bind_of_settle (outcome_addNode g)
    (K := fun n g => (g.putNodeValues n values, n)) fun n g => ?_).trans ?_
  · rw [outcome_bind, outcome_putMany]
    rfl
  · rw [Graph.addNodeWith]
    cases g.addNode <;> rfl

theorem outcome_addNodes (count : UInt32) (g : Graph) :
    (addNodes count).outcome g = settle g (Fault.lift (g.addNodes count)) := by
  unfold addNodes Graph.addNodes
  split
  · rfl
  · refine (outcome_pushNodes count g).trans ?_
    cases g.adjacency.addNodes count <;> rfl

theorem outcome_addNodesWith (lists : List (List (String × Value))) (g : Graph) :
    (addNodesWith lists).outcome g = settle g (Fault.lift (g.addNodesWith lists)) := by
  have hputAll : ∀ (l : List (NodeId × List (String × Value))) (g : Graph),
      (l.forM fun (n, values) => putMany nodeShelf n values).outcome g =
        (.ok (), l.foldl (fun g (n, values) => g.putNodeValues n values) g) := by
    intro l
    induction l with
    | nil => exact fun g => rfl
    | cons entry l ih =>
      intro g
      show (putMany nodeShelf entry.1 entry.2 >>= fun _ =>
        l.forM fun (n, values) => putMany nodeShelf n values).outcome g = _
      rw [outcome_bind, outcome_putMany]
      exact ih _
  unfold addNodesWith Graph.addNodesWith
  split
  · rfl
  · refine (outcome_bind_of_settle (outcome_addNodes _ g) (K := fun s g =>
      ((s.toList.zip lists).foldl (fun g (n, values) => g.putNodeValues n values) g, s))
        fun s g => ?_).trans ?_
    · rw [outcome_bind, hputAll]
      rfl
    · cases g.addNodes lists.length.toUInt32 <;> rfl

/-! ## Edges -/

theorem outcome_requireEndpoints (u v : NodeId) (g : Graph) :
    (requireEndpoints u v).outcome g = (Fault.lift (g.requireEndpoints u v), g) := by
  rw [requireEndpoints, outcome_look_bind, Graph.requireEndpoints]
  cases g.adjacency.requireNode u with
  | error e => rfl
  | ok _ => exact outcome_look _ g

theorem outcome_link (u v : NodeId) (g : Graph) :
    (link u v).outcome g = settle g (Fault.checked
      ((g.adjacency.link u v).map fun r => ({ g with adjacency := r.1 }, r.2))) := by
  show outcome (MonadExcept.ofExcept (Fault.checked (g.adjacency.link u v)) >>= fun r => _) g = _
  cases g.adjacency.link u v <;> rfl

theorem outcome_addEdge (u v : NodeId) (g : Graph) :
    (addEdge u v).outcome g = settle g (g.addEdge u v) := by
  rw [addEdge, outcome_bind, outcome_requireEndpoints, Graph.addEdge]
  cases g.requireEndpoints u v with
  | error e => rfl
  | ok _ =>
    refine (outcome_bind (link u v) _ g).trans ?_
    rw [outcome_link]
    cases g.adjacency.link u v <;> rfl

theorem outcome_addEdgeWith (u v : NodeId) (values : List (String × Value)) (g : Graph) :
    (addEdgeWith u v values).outcome g = settle g (g.addEdgeWith u v values) := by
  refine (outcome_bind_of_settle (outcome_addEdge u v g)
    (K := fun e g => ({ g with edgeCatalog := g.edgeCatalog.putMany e values }, e))
      fun e g => ?_).trans ?_
  · rw [outcome_bind, outcome_putMany]
    rfl
  · rw [Graph.addEdgeWith]
    cases g.addEdge u v <;> rfl

end InPlace

namespace Graph

/-- Between nodes that exist, an edge with values is added unless its pair is full. -/
theorem addEdgeWith_of_hasNode {g : Graph} {d : NewEdge} (hu : g.hasNode d.source = true)
    (hv : g.hasNode d.target = true) :
    g.addEdgeWith d.source d.target d.values =
      if g.adjacency.isFull d.source d.target then .error .overflow
      else .ok (g.withEdge d, g.nextEdge d) := by
  rw [addEdgeWith, addEdge_of_hasNode hu hv]
  cases g.adjacency.isFull d.source d.target <;> rfl

/-- Between nodes that exist, edges are not refused. -/
theorem addEdgesInOrder_ne_refused (list : List (NodeId × NodeId × List (String × Value)))
    {g : Graph} (hnodes : ∀ entry ∈ list, g.hasNode entry.1 = true ∧ g.hasNode entry.2.1 = true)
    (e : GraphError) : g.addEdgesInOrder list ≠ .error (.refused e) := by
  induction list generalizing g with
  | nil => nofun
  | cons entry list ih =>
    obtain ⟨u, v, values⟩ := entry
    obtain ⟨hu, hv⟩ := hnodes (u, v, values) List.mem_cons_self
    rw [addEdgesInOrder, addEdgeWith_of_hasNode (d := ⟨u, v, values⟩) hu hv]
    cases g.adjacency.isFull u v with
    | true => nofun
    | false =>
      have hrest := ih (g := g.withEdge ⟨u, v, values⟩) fun entry hentry =>
        hnodes entry (List.mem_cons_of_mem _ hentry)
      show (addEdgesInOrder (g.withEdge ⟨u, v, values⟩) list >>= _) ≠ _
      cases hadd : addEdgesInOrder (g.withEdge ⟨u, v, values⟩) list with
      | ok result => nofun
      | error fault =>
        rintro ⟨⟩
        exact hrest hadd

theorem mem_of_mem_addable (list : List (NodeId × NodeId × List (String × Value))) {g : Graph}
    {entry : NodeId × NodeId × List (String × Value)} (hentry : entry ∈ g.addable list) :
    entry ∈ list := by
  induction list generalizing g with
  | nil => exact hentry
  | cons first list ih =>
    obtain ⟨u, v, values⟩ := first
    rw [addable] at hentry
    split at hentry
    · rcases List.mem_cons.1 hentry with rfl | hrest
      · exact List.mem_cons_self
      · exact List.mem_cons_of_mem _ (ih hrest)
    · cases hentry

/-- A batch that can be added is added as a whole. -/
theorem addable_of_ok (list : List (NodeId × NodeId × List (String × Value))) {g : Graph}
    {result : Graph × List EdgeId} (hadd : g.addEdgesInOrder list = .ok result) :
    g.addable list = list := by
  induction list generalizing g result with
  | nil => rfl
  | cons entry list ih =>
    obtain ⟨u, v, values⟩ := entry
    obtain ⟨first, hfirst, hrest⟩ := bind_eq_ok_iff.1 hadd
    obtain ⟨rest, hmore, -⟩ := bind_eq_ok_iff.1 hrest
    rw [addable, hfirst]
    exact congrArg _ (ih hmore)

/-- A batch between nodes that exist leaves the edges that can be added. -/
theorem apply_addEdges {g g' : Graph} {list : List (NodeId × NodeId × List (String × Value))}
    {es : List EdgeId} (hall : (list.forM fun (u, v, _) => g.requireEndpoints u v) = .ok ())
    (haddable : g.addEdgesInOrder (g.addable list) = .ok (g', es)) :
    (Request.addEdges list).apply g = g' := by
  have hperform : ∀ {l : List (NodeId × NodeId × List (String × Value))},
      (l.forM fun (u, v, _) => g.requireEndpoints u v) = .ok () →
        (Request.addEdges l).perform g =
          (g.addEdgesInOrder l).map fun result => (result.1, .edges result.2) := by
    intro l hl
    rw [Request.perform, addEdges, hl]
    rfl
  cases hadd : g.addEdgesInOrder list with
  | ok result =>
    rw [addable_of_ok list hadd, hadd] at haddable
    cases haddable
    exact Request.apply_of_ok (by rw [hperform hall, hadd]; rfl)
  | error fault =>
    cases fault with
    | refused e =>
      exact absurd hadd (addEdgesInOrder_ne_refused list (fun entry hentry =>
        (requireEndpoints_eq_ok_iff g _ _).1 ((forM_eq_ok_iff list).1 hall entry hentry)) e)
    | overflow =>
      have hsome : ((g.addable list).forM fun (u, v, _) => g.requireEndpoints u v) = .ok () :=
        (forM_eq_ok_iff _).2 fun entry hentry =>
          (forM_eq_ok_iff list).1 hall entry (mem_of_mem_addable list hentry)
      have hleft : (Request.addEdges (g.addable list)).perform g = .ok (g', .edges es) := by
        rw [hperform hsome, haddable]
        rfl
      exact Request.apply_of_overflow (by rw [hperform hall, hadd]; rfl) hleft

end Graph

namespace InPlace

/-- The loop of a batch ends where an edge cannot be added, and leaves those before. -/
theorem exists_outcome_addEdgeWith (list : List (NodeId × NodeId × List (String × Value)))
    (g : Graph) :
    ∃ g' es, g.addEdgesInOrder (g.addable list) = .ok (g', es) ∧
      (list.mapM fun (u, v, values) => addEdgeWith u v values).outcome g =
        ((g.addEdgesInOrder list).map Prod.snd, g') := by
  induction list generalizing g with
  | nil => exact ⟨g, [], rfl, rfl⟩
  | cons entry list ih =>
    obtain ⟨u, v, values⟩ := entry
    rw [List.mapM_cons, outcome_bind, outcome_addEdgeWith, Graph.addable, Graph.addEdgesInOrder]
    cases hfirst : g.addEdgeWith u v values with
    | error e => exact ⟨g, [], rfl, rfl⟩
    | ok first =>
      obtain ⟨g', es, hrest, hloop⟩ := ih first.1
      refine ⟨g', first.2 :: es, ?_, ?_⟩
      · show Graph.addEdgesInOrder g ((u, v, values) :: first.1.addable list) = _
        rw [Graph.addEdgesInOrder, hfirst, ok_bind]
        show (first.1.addEdgesInOrder (first.1.addable list) >>= _) = _
        rw [hrest]
        rfl
      · refine (outcome_bind _ _ _).trans ?_
        rw [hloop, ok_bind]
        show _ = ((first.1.addEdgesInOrder list >>= _).map Prod.snd, g')
        cases first.1.addEdgesInOrder list <;> rfl

/-- Without the look at all endpoints, the loop leaves edges behind when it fails. -/
example : (List.mapM (fun (u, v, values) => addEdgeWith u v values)
      [(NodeId.mk 0, NodeId.mk 1, []), (NodeId.mk 0, NodeId.mk 9, [])]).outcome
        { Graph.empty ⟨0⟩ with adjacency := .isolated 2 } =
    (.error (.refused (.nodeNotFound ⟨9⟩)),
      { Graph.empty ⟨0⟩ with adjacency := (Adjacency.isolated 2).withEdge ⟨0⟩ ⟨1⟩ }) := rfl

theorem outcome_forM_requireEndpoints (list : List (NodeId × NodeId × List (String × Value)))
    (g : Graph) :
    (list.forM fun (u, v, _) => requireEndpoints u v).outcome g =
      (Fault.lift (list.forM fun (u, v, _) => g.requireEndpoints u v), g) := by
  induction list with
  | nil => rfl
  | cons entry list ih =>
    show (requireEndpoints entry.1 entry.2.1 >>= fun _ =>
      list.forM fun (u, v, _) => requireEndpoints u v).outcome g =
        (Fault.lift (g.requireEndpoints entry.1 entry.2.1 >>= fun _ =>
          list.forM fun (u, v, _) => g.requireEndpoints u v), g)
    rw [outcome_bind, outcome_requireEndpoints]
    cases g.requireEndpoints entry.1 entry.2.1 with
    | error e => rfl
    | ok _ => exact ih

theorem outcome_addEdges (list : List (NodeId × NodeId × List (String × Value))) (g : Graph) :
    (addEdges list).outcome g =
      ((g.addEdges list).map Prod.snd, (Request.addEdges list).apply g) := by
  rw [addEdges, outcome_bind, outcome_forM_requireEndpoints]
  cases hall : list.forM fun (u, v, _) => g.requireEndpoints u v with
  | error e =>
    have hrefused : g.addEdges list = .error (.refused e) := by
      rw [Graph.addEdges, hall]
      rfl
    rw [hrefused, Request.apply_of_refused (e := e) (by rw [Request.perform, hrefused]; rfl)]
    rfl
  | ok _ =>
    have hadd : g.addEdges list = g.addEdgesInOrder list := by
      rw [Graph.addEdges, hall]
      rfl
    obtain ⟨g', es, haddable, hloop⟩ := exists_outcome_addEdgeWith list g
    refine hloop.trans ?_
    rw [hadd, Graph.apply_addEdges hall haddable]

end InPlace

/-! ## Requests -/

namespace Request

/-- A request for anything but a batch of edges touches the graph only if it succeeds. -/
theorem outcome_inPlace_eq_settle {r : Request} (hsingle : ∀ list, r ≠ .addEdges list)
    (g : Graph) : r.inPlace.outcome g = InPlace.settle g (r.perform g) := by
  cases r with
  | addNode => exact InPlace.outcome_map_of_settle (InPlace.outcome_addNode g) _
  | addNodeWith values =>
    exact InPlace.outcome_map_of_settle (InPlace.outcome_addNodeWith values g) _
  | addNodes count => exact InPlace.outcome_map_of_settle (InPlace.outcome_addNodes count g) _
  | addNodesWith lists =>
    exact InPlace.outcome_map_of_settle (InPlace.outcome_addNodesWith lists g) _
  | removeNode n => rfl
  | addEdge u v =>
    refine (InPlace.outcome_map _ _ g).trans ?_
    rw [InPlace.outcome_addEdge, perform]
    cases g.addEdge u v <;> rfl
  | addEdgeWith u v values =>
    refine (InPlace.outcome_map _ _ g).trans ?_
    rw [InPlace.outcome_addEdgeWith, perform]
    cases g.addEdgeWith u v values <;> rfl
  | addEdges list => exact absurd rfl (hsingle list)
  | removeEdge e => rfl
  | declareNodeProperty name default => rfl
  | declareEdgeProperty name default => rfl
  | setNodeValue h n v =>
    exact InPlace.outcome_done (InPlace.outcome_writeByHandle nodeShelf h n v g)
  | setNodeValueByName name n v =>
    exact InPlace.outcome_done (InPlace.outcome_writeByName nodeShelf name n v g)
  | setEdgeValue h e v =>
    exact InPlace.outcome_done (InPlace.outcome_writeByHandle edgeShelf h e v g)
  | setEdgeValueByName name e v =>
    exact InPlace.outcome_done (InPlace.outcome_writeByName edgeShelf name e v g)
  | setAttribute name v => rfl
  | clear owner => rfl
  | clone => rfl

/-- A request that is not a batch leaves the graph as it was if it does not succeed. -/
theorem settle_perform {r : Request} (hbatch : r.batch = []) (g : Graph) :
    InPlace.settle g (r.perform g) = ((r.perform g).map Prod.snd, r.apply g) := by
  cases hperform : r.perform g with
  | ok result =>
    rw [apply_of_ok hperform]
    rfl
  | error fault =>
    cases fault with
    | refused e =>
      rw [apply_of_refused hperform]
      rfl
    | overflow =>
      unfold apply
      rw [carriedOut_of_overflow hperform, hbatch]
      rfl

/-- A request ends in place as it does on values, and leaves the graph that a history goes on
with. -/
theorem outcome_inPlace (r : Request) (g : Graph) :
    r.inPlace.outcome g = ((r.perform g).map Prod.snd, r.apply g) := by
  cases r with
  | addEdges list =>
    refine (InPlace.outcome_map _ _ g).trans ?_
    rw [InPlace.outcome_addEdges, perform]
    cases g.addEdges list <;> rfl
  | _ => exact (outcome_inPlace_eq_settle (by nofun) g).trans (settle_perform rfl g)

end Request

end StateGraph
