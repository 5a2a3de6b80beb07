import StateGraph.Proofs.InPlace
import StateGraph.Proofs.Spans

set_option autoImplicit false

/-!
# Batches

A batch of nodes or of edges with values is the same as its elements one after another.  A
batch that is refused is not done at all: missing endpoints and a number of nodes for which
there is no room are looked for before the first element is added.  That nothing is left
behind is a statement about programs that change a graph in place, since a request on values
that fails yields no graph at all (`Graph.batched`).

Keys are not looked for.  A batch of edges that has too many for one pair of nodes overflows
halfway, and the edges before that one are there.
-/

namespace StateGraph

/-- Whether the error says that an argument is out of its range. -/
def GraphError.isInvalidArgument : GraphError → Bool
  | .noNodes => true
  | .nodeNumbersExhausted .. => true
  | .tooManyNodeLists .. => true
  | .sizeOutOfRange .. => true
  | _ => false

/-- The nodes between which edges are to be added, the source of each before its target. -/
def endpoints (list : List (NodeId × NodeId × List (String × Value))) : List NodeId :=
  list.flatMap fun entry => [entry.1, entry.2.1]

theorem forall_endpoints_iff (P : NodeId → Prop)
    (list : List (NodeId × NodeId × List (String × Value))) :
    (∀ n ∈ endpoints list, P n) ↔ ∀ entry ∈ list, P entry.1 ∧ P entry.2.1 := by
  simp only [endpoints, List.mem_flatMap, List.mem_cons, List.not_mem_nil, or_false]
  constructor
  · exact fun hall entry hentry =>
      ⟨hall _ ⟨entry, hentry, .inl rfl⟩, hall _ ⟨entry, hentry, .inr rfl⟩⟩
  · rintro hall n ⟨entry, hentry, rfl | rfl⟩
    · exact (hall entry hentry).1
    · exact (hall entry hentry).2

theorem toUInt32_ne_zero {n : Nat} (hpos : 0 < n) (hn : n < 2 ^ 32) : n.toUInt32 ≠ 0 := fun heq =>
  Nat.ne_of_gt hpos ((toNat_toUInt32 hn).symm.trans (congrArg UInt32.toNat heq))

namespace Graph

/-- The graph after requests all of which succeed, and their replies. -/
def performEach (g : Graph) : List Request → Except (Fault GraphError) (Graph × List Reply)
  | [] => .ok (g, [])
  | r :: rs => do
    let (g, reply) ← r.perform g
    let (g, replies) ← g.performEach rs
    return (g, reply :: replies)

theorem performEach_cons_of_ok {g g' : Graph} {r : Request} {reply : Reply}
    (hperform : r.perform g = .ok (g', reply)) (rs : List Request) :
    g.performEach (r :: rs) =
      (g'.performEach rs).map fun result => (result.1, reply :: result.2) := by
  rw [performEach, hperform]
  show (g'.performEach rs >>= _) = _
  cases g'.performEach rs <;> rfl

/-! ## Edges -/

/-- The endpoints are looked at one after another, up to the first that is missing. -/
theorem forM_requireEndpoints (list : List (NodeId × NodeId × List (String × Value))) (g : Graph) :
    (list.forM fun (u, v, _) => g.requireEndpoints u v) =
      match (endpoints list).find? fun n => !g.hasNode n with
      | some n => .error (.nodeNotFound n)
      | none => .ok () := by
  induction list with
  | nil => rfl
  | cons entry list ih =>
    show (g.requireEndpoints entry.1 entry.2.1 >>= fun _ =>
      list.forM fun (u, v, _) => g.requireEndpoints u v) = _
    have hcons : endpoints (entry :: list) = entry.1 :: entry.2.1 :: endpoints list := rfl
    rw [ih, hcons, List.find?_cons, List.find?_cons, requireEndpoints, Adjacency.requireNode,
      Adjacency.requireNode, hasNode, hasNode]
    cases g.adjacency.hasNode entry.1 <;> cases g.adjacency.hasNode entry.2.1 <;> rfl

/-- A batch between nodes that exist is its edges in their order. -/
theorem addEdges_of_hasNode {list : List (NodeId × NodeId × List (String × Value))} {g : Graph}
    (hnodes : ∀ n ∈ endpoints list, g.hasNode n = true) :
    g.addEdges list = g.addEdgesInOrder list := by
  have hnone : (endpoints list).find? (fun n => !g.hasNode n) = none :=
    List.find?_eq_none.2 fun n hn => by simp [hnodes n hn]
  rw [addEdges, forM_requireEndpoints, hnone]
  rfl

/-- Edges one after another are requests one after another. -/
theorem performEach_addEdgeWith (list : List (NodeId × NodeId × List (String × Value)))
    (g : Graph) :
    g.performEach (list.map fun (u, v, values) => .addEdgeWith u v values) =
      (g.addEdgesInOrder list).map fun result => (result.1, result.2.map Reply.edge) := by
  induction list generalizing g with
  | nil => rfl
  | cons entry list ih =>
    obtain ⟨u, v, values⟩ := entry
    rw [List.map_cons, addEdgesInOrder]
    cases hfirst : g.addEdgeWith u v values with
    | error e =>
      rw [performEach, Request.perform, hfirst]
      rfl
    | ok first =>
      have hperform :
          (Request.addEdgeWith u v values).perform g = .ok (first.1, .edge first.2) := by
        rw [Request.perform, hfirst]
        rfl
      rw [performEach_cons_of_ok hperform, ih, ok_bind]
      show _ = (first.1.addEdgesInOrder list >>= _).map _
      cases first.1.addEdgesInOrder list <;> rfl

/-- Between nodes that exist, edges are added if there is room for them. -/
theorem exists_addEdgesInOrder_iff (list : List (NodeId × NodeId × List (String × Value)))
    {g : Graph} (hnodes : ∀ entry ∈ list, g.hasNode entry.1 = true ∧ g.hasNode entry.2.1 = true) :
    (∃ result, g.addEdgesInOrder list = .ok result) ↔ g.RoomFor (list.map .ofEntry) := by
  induction list generalizing g with
  | nil => exact iff_of_true ⟨_, rfl⟩ g.roomFor_nil
  | cons entry list ih =>
    obtain ⟨hu, hv⟩ := hnodes entry List.mem_cons_self
    have hrest := ih (g := g.withEdge (.ofEntry entry)) fun other hother =>
      hnodes other (List.mem_cons_of_mem _ hother)
    have hfirst : g.addEdgeWith entry.1 entry.2.1 entry.2.2 = _ :=
      addEdgeWith_of_hasNode (d := .ofEntry entry) hu hv
    rw [List.map_cons, roomFor_cons_iff, ← hrest, addEdgesInOrder, hfirst]
    cases g.adjacency.isFull (NewEdge.ofEntry entry).source (NewEdge.ofEntry entry).target with
    | true =>
      refine iff_of_false (fun hadd => ?_) (fun hroom => Bool.noConfusion hroom.1)
      obtain ⟨result, hadd⟩ := hadd
      cases hadd
    | false =>
      rw [and_iff_right rfl]
      constructor
      · intro hadd
        obtain ⟨result, hadd⟩ := hadd
        obtain ⟨made, hmade, hrest⟩ := bind_eq_ok_iff.1 hadd
        obtain ⟨rest, hmore, -⟩ := bind_eq_ok_iff.1 hrest
        cases hmade
        exact ⟨rest, hmore⟩
      · intro hmore
        obtain ⟨rest, hmore⟩ := hmore
        exact ⟨_, bind_eq_ok_iff.2 ⟨_, rfl, bind_eq_ok_iff.2 ⟨rest, hmore, rfl⟩⟩⟩

/-- Edges end where one of them cannot be added, and those before it can. -/
theorem addEdgesInOrder_append_cons {before : List (NodeId × NodeId × List (String × Value))}
    (after : List (NodeId × NodeId × List (String × Value)))
    {entry : NodeId × NodeId × List (String × Value)} {g g' : Graph} {es : List EdgeId}
    {fault : Fault GraphError} (hbefore : g.addEdgesInOrder before = .ok (g', es))
    (hentry : g'.addEdgeWith entry.1 entry.2.1 entry.2.2 = .error fault) :
    g.addEdgesInOrder (before ++ entry :: after) = .error fault ∧
      g.addable (before ++ entry :: after) = before := by
  induction before generalizing g es with
  | nil =>
    cases hbefore
    rw [List.nil_append, addEdgesInOrder, addable, hentry]
    exact ⟨rfl, rfl⟩
  | cons first before ih =>
    obtain ⟨made, hfirst, hrest⟩ := bind_eq_ok_iff.1 hbefore
    obtain ⟨rest, hmore, hdone⟩ := bind_eq_ok_iff.1 hrest
    cases hdone
    obtain ⟨hadd, hsome⟩ := ih hmore
    rw [List.cons_append, addEdgesInOrder, addable, hfirst]
    refine ⟨?_, congrArg _ hsome⟩
    show (made.1.addEdgesInOrder (before ++ entry :: after) >>= _) = _
    rw [hadd]
    rfl

/-! ## Nodes -/

/-- Nodes with values are added together as they are one by one. -/
theorem performEach_addNodeWith (lists : List (List (String × Value))) {g : Graph} {stop : UInt32}
    (hstop : stop.toNat = g.adjacency.nodeCount.toNat + lists.length) :
    g.performEach (lists.map .addNodeWith) =
      .ok (((NodeSpan.mk g.adjacency.nodeCount stop).toList.zip lists).foldl
          (fun g (n, values) => g.putNodeValues n values)
          { g with adjacency := { g.adjacency with nodeCount := stop } },
        (NodeSpan.mk g.adjacency.nodeCount stop).toList.map Reply.node) := by
  induction lists generalizing g with
  | nil =>
    obtain rfl : stop = g.adjacency.nodeCount := UInt32.toNat_inj.1 hstop
    rw [NodeSpan.toList, NodeSpan.size, Nat.sub_self]
    rfl
  | cons values lists ih =>
    have hbound := stop.toNat_lt
    rw [List.length_cons] at hstop
    have hfits : g.adjacency.nodeCount.toNat + (1 : UInt32).toNat < 2 ^ 32 := by
      rw [UInt32.toNat_one]
      omega
    have hsum := Adjacency.toNat_nodeCount_add hfits
    rw [UInt32.toNat_one] at hsum
    have hfirst : (Request.addNodeWith values).perform g = .ok (Graph.putNodeValues
        { g with adjacency := { g.adjacency with nodeCount := g.adjacency.nodeCount + 1 } }
        ⟨g.adjacency.nodeCount⟩ values, .node ⟨g.adjacency.nodeCount⟩) := by
      rw [Request.perform, addNodeWith, addNode,
        (Adjacency.addNodes_eq_ok_iff _ _ _ _).2 ⟨hfits, rfl, rfl⟩]
      rfl
    have hsome : g.adjacency.nodeCount < stop := by
      rw [UInt32.lt_iff_toNat_lt]
      omega
    rw [List.map_cons, performEach_cons_of_ok hfirst, ih (by
      show stop.toNat = (g.adjacency.nodeCount + 1).toNat + lists.length
      omega)]
    rw [NodeSpan.toList_of_lt (s := ⟨g.adjacency.nodeCount, stop⟩) hsome]
    rfl

/-- Nodes with values are added if there are some and there are numbers for them. -/
theorem addNodesWith_eq_ok {g : Graph} {lists : List (List (String × Value))} (hsome : lists ≠ [])
    (hroom : g.nodeCount + lists.length < 2 ^ 32) :
    ∃ g' span, g.addNodesWith lists = .ok (g', span) ∧
      g.performEach (lists.map .addNodeWith) = .ok (g', span.toList.map Reply.node) := by
  have hfew : lists.length < UInt32.size := Nat.lt_of_le_of_lt (Nat.le_add_left _ _) hroom
  have hlength := toNat_toUInt32 hfew
  have hcount := toUInt32_ne_zero (List.length_pos_iff.2 hsome) hfew
  have hfits : g.adjacency.nodeCount.toNat + lists.length.toUInt32.toNat < 2 ^ 32 := by
    rw [hlength]
    exact hroom
  refine ⟨_, _, ?_, performEach_addNodeWith lists ((Adjacency.toNat_nodeCount_add hfits).trans
    (congrArg _ hlength))⟩
  rw [addNodesWith, if_neg (Nat.not_le_of_lt hfew), addNodes, if_neg hcount,
    (Adjacency.addNodes_eq_ok_iff _ _ _ _).2 ⟨hfits, rfl, rfl⟩]
  rfl

/-- Otherwise they are refused for their number. -/
theorem addNodesWith_eq_error {g : Graph} {lists : List (List (String × Value))}
    (hunfit : ¬ (lists ≠ [] ∧ g.nodeCount + lists.length < 2 ^ 32)) :
    ∃ e, g.addNodesWith lists = .error e ∧ e.isInvalidArgument = true := by
  by_cases hfew : UInt32.size ≤ lists.length
  · refine ⟨.tooManyNodeLists lists.length, ?_, rfl⟩
    rw [addNodesWith, if_pos hfew]
    rfl
  · have hlength := toNat_toUInt32 (Nat.lt_of_not_le hfew)
    rw [addNodesWith, if_neg hfew, addNodes]
    by_cases hsome : lists = []
    · subst hsome
      exact ⟨.noNodes, rfl, rfl⟩
    · have hcount := toUInt32_ne_zero (List.length_pos_iff.2 hsome) (Nat.lt_of_not_le hfew)
      have hexhausted : g.adjacency.addNodes lists.length.toUInt32 =
          .error (.nodeNumbersExhausted lists.length.toUInt32 g.adjacency.nodeCount) := by
        refine if_neg fun hfits => hunfit ⟨hsome, ?_⟩
        rwa [hlength] at hfits
      rw [if_neg hcount, hexhausted]
      exact ⟨_, rfl, rfl⟩

/-! ## Batches and their elements -/

/-- What batches do to a graph, and what requests that do not succeed leave behind. -/
structure Batched (g : Graph) : Prop where
  /-- edges are added if all of their endpoints exist and no pair gets more than there are
  keys -/
  edges_iff : ∀ list, (∃ result, g.addEdges list = .ok result) ↔
    (∀ n ∈ endpoints list, g.hasNode n = true) ∧ g.RoomFor (list.map .ofEntry)
  /-- between nodes that exist, a batch of edges ends as its edges one after another do -/
  edges_steps : ∀ list, (∀ n ∈ endpoints list, g.hasNode n = true) →
    g.performEach (list.map fun (u, v, values) => .addEdgeWith u v values) =
      (g.addEdges list).map fun result => (result.1, result.2.map Reply.edge)
  /-- if an endpoint is missing, the first such is named and the graph is left as it was -/
  edges_missing : ∀ list before n after, endpoints list = before ++ n :: after →
    (∀ m ∈ before, g.hasNode m = true) → g.hasNode n = false →
      (InPlace.addEdges list).outcome g = (.error (.refused (.nodeNotFound n)), g)
  /-- if an edge has no key, the program stops, and the edges before it are in the graph -/
  edges_overflow : ∀ before entry after g' replies,
    (∀ n ∈ endpoints (before ++ entry :: after), g.hasNode n = true) →
    g.performEach (before.map fun (u, v, values) => .addEdgeWith u v values) = .ok (g', replies) →
    g'.addEdgeWith entry.1 entry.2.1 entry.2.2 = .error .overflow →
      (InPlace.addEdges (before ++ entry :: after)).outcome g = (.error .overflow, g')
  /-- nodes are added if there are some and there are numbers for them -/
  nodes_iff : ∀ lists, (∃ result, g.addNodesWith lists = .ok result) ↔
    lists ≠ [] ∧ g.nodeCount + lists.length ≤ 2 ^ 32 - 1
  /-- a batch of nodes is its nodes one after another -/
  nodes_steps : ∀ lists g' span, g.addNodesWith lists = .ok (g', span) →
    g.performEach (lists.map .addNodeWith) = .ok (g', span.toList.map Reply.node)
  /-- otherwise their number is refused and the graph is left as it was -/
  nodes_refused : ∀ lists, ¬ (lists ≠ [] ∧ g.nodeCount + lists.length ≤ 2 ^ 32 - 1) →
    ∃ e, (InPlace.addNodesWith lists).outcome g = (.error (.refused e), g) ∧
      e.isInvalidArgument = true
  /-- in place, a request that succeeds leaves the graph that it yields -/
  done : ∀ (r : Request) g' reply, r.perform g = .ok (g', reply) →
    r.inPlace.outcome g = (.ok reply, g')
  /-- in place, a request that is refused leaves the graph as it was -/
  undone : ∀ (r : Request) e, r.perform g = .error (.refused e) →
    r.inPlace.outcome g = (.error (.refused e), g)
  /-- so does one that overflows, unless it is a batch -/
  stopped : ∀ r : Request, r.batch = [] → r.perform g = .error .overflow →
    r.inPlace.outcome g = (.error .overflow, g)

/-- A batch is its elements one after another, and one that is refused is not done at all.
A batch of edges overflows halfway if and only if it has too many for a pair of nodes. -/
theorem batched (g : Graph) : g.Batched where
  edges_iff list := by
    rw [forall_endpoints_iff]
    constructor
    · rintro ⟨result, hadd⟩
      obtain ⟨⟨⟩, hall, hadded⟩ := bind_eq_ok_iff.1 hadd
      have hnodes : ∀ entry ∈ list, g.hasNode entry.1 = true ∧ g.hasNode entry.2.1 = true :=
        fun entry hentry => (requireEndpoints_eq_ok_iff g _ _).1
          ((forM_eq_ok_iff list).1 (Fault.lift_eq_ok_iff.1 hall) entry hentry)
      exact ⟨hnodes, (exists_addEdgesInOrder_iff list hnodes).1 ⟨result, hadded⟩⟩
    · rintro ⟨hnodes, hroom⟩
      obtain ⟨result, hadded⟩ := (exists_addEdgesInOrder_iff list hnodes).2 hroom
      exact ⟨result, (addEdges_of_hasNode ((forall_endpoints_iff _ list).2 hnodes)).trans hadded⟩
  edges_steps list hnodes := by
    rw [performEach_addEdgeWith, addEdges_of_hasNode hnodes]
  edges_missing list before n after hsplit hbefore hn := by
    have hfirst : (endpoints list).find? (fun n => !g.hasNode n) = some n := by
      rw [hsplit, List.find?_append, List.find?_eq_none.2 fun m hm => by simp [hbefore m hm],
        Option.none_or, List.find?_cons_of_pos (by simp [hn])]
    have hadd : g.addEdges list = .error (.refused (.nodeNotFound n)) := by
      rw [addEdges, forM_requireEndpoints, hfirst]
      rfl
    rw [InPlace.outcome_addEdges, hadd, Request.apply_of_refused (e := .nodeNotFound n)]
    · rfl
    · rw [Request.perform, hadd]
      rfl
  edges_overflow before entry after g' replies hnodes hsteps hentry := by
    have hall : ((before ++ entry :: after).forM fun (u, v, _) => g.requireEndpoints u v) =
        .ok () := (forM_eq_ok_iff _).2 fun other hother =>
      (requireEndpoints_eq_ok_iff g _ _).2 ((forall_endpoints_iff _ _).1 hnodes other hother)
    rw [performEach_addEdgeWith] at hsteps
    obtain ⟨made, hbefore, hdone⟩ := map_eq_ok_iff.1 hsteps
    obtain ⟨rfl, -⟩ := Prod.mk.inj hdone
    obtain ⟨hadd, hsome⟩ := addEdgesInOrder_append_cons after hbefore hentry
    have hadded : g.addEdgesInOrder (g.addable (before ++ entry :: after)) = .ok made := by
      rw [hsome, hbefore]
    rw [InPlace.outcome_addEdges, addEdges_of_hasNode hnodes, hadd, apply_addEdges hall hadded]
    rfl
  nodes_iff lists := by
    rw [Nat.le_sub_one_iff_lt (by decide)]
    constructor
    · rintro ⟨result, hadd⟩
      by_contra hunfit
      obtain ⟨e, herror, -⟩ := addNodesWith_eq_error hunfit
      rw [herror] at hadd
      cases hadd
    · rintro ⟨hsome, hroom⟩
      obtain ⟨g', span, hadd, -⟩ := addNodesWith_eq_ok hsome hroom
      exact ⟨_, hadd⟩
  nodes_steps lists g' span hadd := by
    by_cases hfit : lists ≠ [] ∧ g.nodeCount + lists.length < 2 ^ 32
    · obtain ⟨g₁, span₁, hadd₁, hsteps⟩ := addNodesWith_eq_ok hfit.1 hfit.2
      rw [hadd] at hadd₁
      cases hadd₁
      exact hsteps
    · obtain ⟨e, herror, -⟩ := addNodesWith_eq_error hfit
      rw [herror] at hadd
      cases hadd
  nodes_refused lists hunfit := by
    rw [Nat.le_sub_one_iff_lt (by decide)] at hunfit
    obtain ⟨e, herror, hkind⟩ := addNodesWith_eq_error hunfit
    refine ⟨e, ?_, hkind⟩
    rw [InPlace.outcome_addNodesWith, herror]
    rfl
  done r g' reply hperform := by
    rw [Request.outcome_inPlace, hperform, Request.apply_of_ok hperform]
    rfl
  undone r e hperform := by
    rw [Request.outcome_inPlace, hperform, Request.apply_of_refused hperform]
    rfl
  stopped r hbatch hperform := by
    rw [Request.outcome_inPlace, ← Request.settle_perform hbatch, hperform]
    rfl

/-- A pair of nodes with all but one of its keys in use: of a batch of two edges between
nodes that exist the first is added, and the program stops at the second. -/
theorem overflows_halfway_of_full_pair :
    ∃ g g', ofParts ⟨0⟩ 1 [(⟨0⟩, ⟨0⟩, 0xFFFFFFFE)] [] [] .empty = .ok g ∧
      (∀ n ∈ endpoints [(⟨0⟩, ⟨0⟩, []), (⟨0⟩, ⟨0⟩, [])], g.hasNode n = true) ∧
      (InPlace.addEdges [(⟨0⟩, ⟨0⟩, []), (⟨0⟩, ⟨0⟩, [])]).outcome g = (.error .overflow, g') ∧
      g'.edgeCount = g.edgeCount + 1 :=
  ⟨_, _, rfl, by decide, rfl, rfl⟩

end Graph

end StateGraph
