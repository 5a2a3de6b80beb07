import StateGraph.Proofs.EdgeViews
import StateGraph.Proofs.Parts
import StateGraph.Proofs.WellFormed

set_option autoImplicit false

/-!
# The numbers of new nodes and edges

Whatever is asked of a graph in between, new nodes get the next numbers, and the edges of
each pair of nodes get keys that count them.  The adjacency keeps no such counters: it
keeps the node count and the highest key of each pair that has an edge.

`Adjacency.Grows` says what an adjacency and the numbers that it gave out have to do with
each other.  Single additions grow it, and so does what is done one after another, hence
every request and every history without a clearing (`Graph.numbered_run`).  Keys are 32-bit
words; an edge for which none is left is not added, so no key comes twice.
-/

namespace StateGraph

/-- Spans that are not empty follow each other from one number to another without gaps. -/
def NodeSpan.Adjoin (start stop : UInt32) : List NodeSpan → Prop
  | [] => start = stop
  | s :: spans => s.start = start ∧ s.start < s.stop ∧ Adjoin s.stop stop spans

namespace NodeSpan

theorem Adjoin.append {start middle stop : UInt32} {first rest : List NodeSpan}
    (hfirst : Adjoin start middle first) (hrest : Adjoin middle stop rest) :
    Adjoin start stop (first ++ rest) := by
  induction first generalizing start with
  | nil =>
    cases hfirst
    exact hrest
  | cons s first ih => exact ⟨hfirst.1, hfirst.2.1, ih hfirst.2.2⟩

/-- Adjoining spans hold the numbers from their start up to their end. -/
theorem Adjoin.lt_iff {start stop : UInt32} {spans : List NodeSpan}
    (hadjoin : Adjoin start stop spans) (n : NodeId) :
    n.index < stop ↔ n.index < start ∨ ∃ s ∈ spans, s.contains n = true := by
  induction spans generalizing start with
  | nil =>
    cases hadjoin
    simp
  | cons s spans ih =>
    obtain ⟨rfl, hsome, hrest⟩ := hadjoin
    have hlt : n.index < s.stop ↔ n.index < s.start ∨ s.contains n = true := by
      rw [contains, Bool.and_eq_true, decide_eq_true_eq, decide_eq_true_eq]
      simp only [UInt32.lt_iff_toNat_lt, UInt32.le_iff_toNat_le] at hsome ⊢
      omega
    rw [ih hrest, hlt, or_assoc]
    simp only [List.mem_cons, exists_eq_or_imp]

end NodeSpan

namespace Adjacency

/-! ## Growing adjacencies -/

/-- Spans of nodes of the given sizes and edges between the given pairs were added to an
adjacency, with the next numbers and the next keys of each pair. -/
structure Grows (a b : Adjacency) (sizes : List Nat) (spans : List NodeSpan)
    (pairs : List (NodeId × NodeId)) (edges : List EdgeId) : Prop where
  sizes : spans.map NodeSpan.size = sizes
  adjoin : NodeSpan.Adjoin a.nodeCount b.nodeCount spans
  endpoints : edges.map EdgeId.endpoints = pairs
  keyCount : ∀ u v, b.keyCount u v = a.keyCount u v + pairs.count (u, v)
  keys : ∀ u v, (edges.filter fun e => decide (e.endpoints = (u, v))) =
    (List.range (pairs.count (u, v))).map fun i => ⟨u, v, (a.keyCount u v + i).toUInt32⟩

theorem Grows.refl (a : Adjacency) : a.Grows a [] [] [] [] where
  sizes := rfl
  adjoin := rfl
  endpoints := rfl
  keyCount _ _ := rfl
  keys _ _ := rfl

theorem grows_addNodes {a b : Adjacency} {count : UInt32} {span : NodeSpan} (hsome : count ≠ 0)
    (hadd : a.addNodes count = .ok (b, span)) : a.Grows b [count.toNat] [span] [] [] := by
  obtain ⟨hfits, rfl, rfl⟩ := (addNodes_eq_ok_iff _ _ _ _).1 hadd
  have hsum := toNat_nodeCount_add hfits
  have hpos : count.toNat ≠ 0 := fun heq => hsome (UInt32.toNat_inj.1 heq)
  refine ⟨?_, ⟨rfl, ?_, rfl⟩, rfl, fun _ _ => rfl, fun _ _ => rfl⟩
  · rw [List.map_singleton, NodeSpan.size, hsum, Nat.add_sub_cancel_left]
  · show a.nodeCount < a.nodeCount + count
    rw [UInt32.lt_iff_toNat_lt, hsum]
    exact Nat.lt_add_of_pos_right (Nat.pos_of_ne_zero hpos)

theorem grows_withEdge {a : Adjacency} {u v : NodeId} (hfull : a.isFull u v = false) :
    a.Grows (a.withEdge u v) [] [] [(u, v)] [⟨u, v, a.nextKey u v⟩] where
  sizes := rfl
  adjoin := rfl
  endpoints := rfl
  keyCount x y := by
    rw [keyCount_withEdge hfull]
    by_cases hpair : u = x ∧ v = y
    · obtain ⟨rfl, rfl⟩ := hpair
      simp
    · have hother : (u, v) ≠ (x, y) := fun heq => hpair (Prod.mk.inj heq)
      rw [if_neg hpair, List.count_eq_zero_of_not_mem (by simpa using Ne.symm hother), Nat.add_zero]
  keys x y := by
    by_cases hpair : (u, v) = (x, y)
    · cases hpair
      have hkey : a.nextKey u v = (a.keyCount u v).toUInt32 := by
        rw [← toNat_nextKey hfull]
        exact UInt32.ofNat_toNat.symm
      rw [List.count_singleton_self, hkey]
      simp [EdgeId.endpoints]
    · rw [List.count_eq_zero_of_not_mem (by simpa using Ne.symm hpair)]
      simpa [EdgeId.endpoints] using hpair

theorem Grows.trans {a b c : Adjacency} {sizes sizes' : List Nat} {spans spans' : List NodeSpan}
    {pairs pairs' : List (NodeId × NodeId)} {edges edges' : List EdgeId}
    (hfirst : a.Grows b sizes spans pairs edges) (hrest : b.Grows c sizes' spans' pairs' edges') :
    a.Grows c (sizes ++ sizes') (spans ++ spans') (pairs ++ pairs') (edges ++ edges') where
  sizes := by rw [List.map_append, hfirst.sizes, hrest.sizes]
  adjoin := hfirst.adjoin.append hrest.adjoin
  endpoints := by rw [List.map_append, hfirst.endpoints, hrest.endpoints]
  keyCount u v := by
    rw [hrest.keyCount, hfirst.keyCount, List.count_append, Nat.add_assoc]
  keys u v := by
    rw [List.filter_append, hfirst.keys, hrest.keys, List.count_append, List.range_add,
      List.map_append, List.map_map, hfirst.keyCount]
    refine congrArg _ (List.map_congr_left fun i _ => ?_)
    rw [Function.comp_apply, Nat.add_assoc]

/-- The nodes of a grown adjacency are the old ones and the new ones. -/
theorem Grows.hasNode_iff {a b : Adjacency} {sizes : List Nat} {spans : List NodeSpan}
    {pairs : List (NodeId × NodeId)} {edges : List EdgeId}
    (hgrows : a.Grows b sizes spans pairs edges) (n : NodeId) :
    b.hasNode n = true ↔ n.index < a.nodeCount ∨ ∃ s ∈ spans, s.contains n = true := by
  rw [hasNode, decide_eq_true_eq]
  exact hgrows.adjoin.lt_iff n

/-- The edges of a grown adjacency are the old ones and the new ones. -/
theorem Grows.hasEdge_iff {a b : Adjacency} {sizes : List Nat} {spans : List NodeSpan}
    {pairs : List (NodeId × NodeId)} {edges : List EdgeId}
    (hgrows : a.Grows b sizes spans pairs edges) (e : EdgeId) :
    b.hasEdge e = true ↔ e.key.toNat < a.keyCount e.source e.target ∨ e ∈ edges := by
  -- the keys of the new edges are words because all keys of the pair are
  have hwords := b.keyCount_le e.source e.target
  rw [hgrows.keyCount] at hwords
  have hnew : e ∈ edges ↔ ∃ i < pairs.count (e.source, e.target),
      (a.keyCount e.source e.target + i).toUInt32 = e.key := by
    have hmem : e ∈ edges ↔
        e ∈ edges.filter fun d => decide (d.endpoints = (e.source, e.target)) := by
      rw [List.mem_filter]
      exact (and_iff_left (decide_eq_true rfl)).symm
    rw [hmem, hgrows.keys, List.mem_map]
    refine exists_congr fun i => and_congr List.mem_range ⟨congrArg EdgeId.key, ?_⟩
    intro hkey
    rw [hkey]
  rw [hasEdge_iff_lt_keyCount, hgrows.keyCount, hnew]
  constructor
  · intro hlt
    by_cases hold : e.key.toNat < a.keyCount e.source e.target
    · exact .inl hold
    · refine .inr ⟨e.key.toNat - a.keyCount e.source e.target, by omega, ?_⟩
      rw [Nat.add_sub_cancel' (Nat.le_of_not_lt hold)]
      exact UInt32.ofNat_toNat
  · rintro (hold | ⟨i, hi, hkey⟩)
    · exact Nat.lt_of_lt_of_le hold (Nat.le_add_right _ _)
    · rw [← hkey, toNat_toUInt32 (by omega)]
      omega

/-- The number of edges that entries give to a pair of nodes. -/
def keysTaken (l : List (NodeId × NodeId × UInt32)) (u v : NodeId) : Nat :=
  match l.find? fun d => decide (d.1 = u ∧ d.2.1 = v) with
  | some d => d.2.2.toNat + 1
  | none => 0

theorem keyCount_recorded (nodeCount : UInt32) {l : List (NodeId × NodeId × UInt32)}
    (hpairs : (l.map fun e => (e.1, e.2.1)).Nodup) (u v : NodeId) :
    (recorded nodeCount l).keyCount u v = keysTaken l u v := by
  unfold keysTaken keyCount
  cases hfind : l.find? fun d => decide (d.1 = u ∧ d.2.1 = v) with
  | some d =>
    obtain ⟨rfl, rfl⟩ : d.1 = u ∧ d.2.1 = v := by simpa using List.find?_some hfind
    rw [(highestKey_recorded_iff hpairs _ _ _).2 (List.mem_of_find?_eq_some hfind)]
  | none =>
    have hnone : (recorded nodeCount l).highestKey u v = none := by
      rw [← Option.not_isSome_iff_eq_none, isSome_highestKey_recorded, List.mem_map]
      rintro ⟨d, hd, heq⟩
      have hother := List.find?_eq_none.1 hfind d hd
      exact hother (decide_eq_true (Prod.mk.inj heq))
    rw [hnone]

end Adjacency

/-! ## Requests -/

/-- The nodes that a reply says were added. -/
def Reply.addedSpans : Reply → List NodeSpan
  | .node n => [⟨n.index, n.index + 1⟩]
  | .span s => [s]
  | _ => []

namespace Request

/-- How many nodes a request asks for, if it asks for any. -/
def sizes : Request → List Nat
  | .addNode => [1]
  | .addNodeWith _ => [1]
  | .addNodes count => [count.toNat]
  | .addNodesWith lists => [lists.length]
  | _ => []

/-- Between which nodes a request asks for edges. -/
def pairs : Request → List (NodeId × NodeId)
  | .addEdge u v => [(u, v)]
  | .addEdgeWith u v _ => [(u, v)]
  | .addEdges list => list.map fun entry => (entry.1, entry.2.1)
  | _ => []

end Request

namespace Graph

open Adjacency

theorem grows_addNode {g g' : Graph} {n : NodeId} (hadd : g.addNode = .ok (g', n)) :
    g.adjacency.Grows g'.adjacency [1] [⟨n.index, n.index + 1⟩] [] [] := by
  obtain ⟨a, span, hnodes, rfl, rfl⟩ := addNode_eq_ok hadd
  have hgrows := grows_addNodes (by decide) hnodes
  obtain ⟨-, -, rfl⟩ := (addNodes_eq_ok_iff _ _ _ _).1 hnodes
  exact hgrows

theorem grows_addNodeSpan {g g' : Graph} {count : UInt32} {span : NodeSpan}
    (hadd : g.addNodes count = .ok (g', span)) :
    g.adjacency.Grows g'.adjacency [count.toNat] [span] [] [] := by
  have hsome : count ≠ 0 := by
    rintro rfl
    cases hadd
  obtain ⟨a, hnodes, rfl⟩ := addNodes_eq_ok hadd
  exact grows_addNodes hsome hnodes

/-- Values on nodes do not touch the adjacency. -/
theorem adjacency_putAll (lists : List (NodeId × List (String × Value))) (g : Graph) :
    (lists.foldl (fun g (n, values) => g.putNodeValues n values) g).adjacency = g.adjacency := by
  induction lists generalizing g with
  | nil => rfl
  | cons entry lists ih => exact ih (g.putNodeValues entry.1 entry.2)

theorem grows_addNodesWith {g g' : Graph} {lists : List (List (String × Value))} {span : NodeSpan}
    (hadd : g.addNodesWith lists = .ok (g', span)) :
    g.adjacency.Grows g'.adjacency [lists.length] [span] [] [] := by
  unfold addNodesWith at hadd
  split at hadd
  · cases hadd
  · rename_i hfew
    obtain ⟨⟨g₁, span₁⟩, hnodes, hdone⟩ := bind_eq_ok_iff.1 hadd
    cases hdone
    have hgrows := grows_addNodeSpan hnodes
    rw [toNat_toUInt32 (Nat.lt_of_not_le hfew)] at hgrows
    rw [adjacency_putAll]
    exact hgrows

theorem grows_addEdge {g g' : Graph} {u v : NodeId} {e : EdgeId}
    (hadd : g.addEdge u v = .ok (g', e)) :
    g.adjacency.Grows g'.adjacency [] [] [(u, v)] [e] := by
  obtain ⟨-, hfull, rfl, rfl⟩ := (addEdge_eq_ok_iff _ _ _ _ _).1 hadd
  exact grows_withEdge hfull

theorem grows_addEdgeWith {g g' : Graph} {u v : NodeId} {values : List (String × Value)}
    {e : EdgeId} (hadd : g.addEdgeWith u v values = .ok (g', e)) :
    g.adjacency.Grows g'.adjacency [] [] [(u, v)] [e] := by
  obtain ⟨⟨g₁, e₁⟩, hedge, hdone⟩ := bind_eq_ok_iff.1 hadd
  cases hdone
  have hgrows := grows_addEdge hedge
  exact hgrows

theorem grows_addEdgesInOrder (list : List (NodeId × NodeId × List (String × Value)))
    {g g' : Graph} {es : List EdgeId} (hadd : g.addEdgesInOrder list = .ok (g', es)) :
    g.adjacency.Grows g'.adjacency [] [] (list.map fun entry => (entry.1, entry.2.1)) es := by
  induction list generalizing g es with
  | nil =>
    cases hadd
    exact .refl _
  | cons entry list ih =>
    obtain ⟨u, v, values⟩ := entry
    obtain ⟨⟨g₁, e⟩, hfirst, hrest⟩ := bind_eq_ok_iff.1 hadd
    obtain ⟨⟨g₂, es₂⟩, hmore, hdone⟩ := bind_eq_ok_iff.1 hrest
    cases hdone
    exact (grows_addEdgeWith hfirst).trans (ih hmore)

/-- A request that succeeds gives out the next numbers, as many as it asks for. -/
theorem grows_perform {g g' : Graph} {r : Request} {reply : Reply}
    (hperform : r.perform g = .ok (g', reply)) (hresets : r.resets = false) :
    g.adjacency.Grows g'.adjacency r.sizes reply.addedSpans r.pairs reply.addedEdges := by
  cases r with
  | addNode =>
    obtain ⟨⟨g₁, n⟩, hadd, hdone⟩ := Fault.lift_map_eq_ok_iff.1 hperform
    cases hdone
    exact grows_addNode hadd
  | addNodeWith values =>
    obtain ⟨⟨g₁, n⟩, hadd, hdone⟩ := Fault.lift_map_eq_ok_iff.1 hperform
    cases hdone
    obtain ⟨⟨g₂, n₂⟩, hnode, hdone⟩ := bind_eq_ok_iff.1 hadd
    cases hdone
    have hgrows := grows_addNode hnode
    exact hgrows
  | addNodes count =>
    obtain ⟨⟨g₁, span⟩, hadd, hdone⟩ := Fault.lift_map_eq_ok_iff.1 hperform
    cases hdone
    exact grows_addNodeSpan hadd
  | addNodesWith lists =>
    obtain ⟨⟨g₁, span⟩, hadd, hdone⟩ := Fault.lift_map_eq_ok_iff.1 hperform
    cases hdone
    exact grows_addNodesWith hadd
  | removeNode n => cases hperform
  | addEdge u v =>
    obtain ⟨⟨g₁, e⟩, hadd, hdone⟩ := map_eq_ok_iff.1 hperform
    cases hdone
    exact grows_addEdge hadd
  | addEdgeWith u v values =>
    obtain ⟨⟨g₁, e⟩, hadd, hdone⟩ := map_eq_ok_iff.1 hperform
    cases hdone
    exact grows_addEdgeWith hadd
  | addEdges list =>
    obtain ⟨⟨g₁, es⟩, hadd, hdone⟩ := map_eq_ok_iff.1 hperform
    cases hdone
    obtain ⟨⟨⟩, -, hedges⟩ := bind_eq_ok_iff.1 hadd
    exact grows_addEdgesInOrder list hedges
  | removeEdge e => cases hperform
  | declareNodeProperty name default =>
    cases hperform
    exact .refl _
  | declareEdgeProperty name default =>
    cases hperform
    exact .refl _
  | setNodeValue h n v =>
    obtain ⟨g₁, hset, hdone⟩ := Fault.lift_map_eq_ok_iff.1 hperform
    cases hdone
    obtain ⟨written, -, hdone⟩ := bind_eq_ok_iff.1 hset
    cases hdone
    exact .refl _
  | setNodeValueByName name n v =>
    obtain ⟨g₁, hset, hdone⟩ := Fault.lift_map_eq_ok_iff.1 hperform
    cases hdone
    obtain ⟨written, -, hdone⟩ := bind_eq_ok_iff.1 hset
    cases hdone
    exact .refl _
  | setEdgeValue h e v =>
    obtain ⟨g₁, hset, hdone⟩ := Fault.lift_map_eq_ok_iff.1 hperform
    cases hdone
    obtain ⟨written, -, hdone⟩ := bind_eq_ok_iff.1 hset
    cases hdone
    exact .refl _
  | setEdgeValueByName name e v =>
    obtain ⟨g₁, hset, hdone⟩ := Fault.lift_map_eq_ok_iff.1 hperform
    cases hdone
    obtain ⟨written, -, hdone⟩ := bind_eq_ok_iff.1 hset
    cases hdone
    exact .refl _
  | setAttribute name v =>
    cases hperform
    exact .refl _
  | clear owner => cases hresets
  | clone =>
    cases hperform
    exact .refl _

/-! ## Histories -/

/-- The requests of a history that succeed, as far as they are carried out, with their
replies. -/
def granted (g : Graph) : List Request → List (Request × Reply)
  | [] => []
  | r :: rs =>
    match (r.carriedOut g).perform g with
    | .ok (g', reply) => (r.carriedOut g, reply) :: g'.granted rs
    | .error _ => g.granted rs

/-- How many nodes were asked for each time that nodes were added. -/
def grantedSizes (g : Graph) (requests : List Request) : List Nat :=
  (g.granted requests).flatMap fun entry => entry.1.sizes

/-- Between which nodes edges were added, in the order of the additions. -/
def grantedPairs (g : Graph) (requests : List Request) : List (NodeId × NodeId) :=
  (g.granted requests).flatMap fun entry => entry.1.pairs

/-- The nodes that were given out, in the order of the additions. -/
def issuedSpans (g : Graph) (requests : List Request) : List NodeSpan :=
  (g.granted requests).flatMap fun entry => entry.2.addedSpans

/-- The edges that were given out, in the order of the additions. -/
def issuedEdges (g : Graph) (requests : List Request) : List EdgeId :=
  (g.granted requests).flatMap fun entry => entry.2.addedEdges

/-- Of a longer history the beginning is granted as it is on its own. -/
theorem granted_append (g : Graph) (before after : List Request) :
    g.granted (before ++ after) = g.granted before ++ (g.run before).granted after := by
  induction before generalizing g with
  | nil => rfl
  | cons r before ih =>
    have hrun : g.run (r :: before) = (r.apply g).run before := rfl
    rw [List.cons_append, granted, granted, hrun, Request.apply]
    cases (r.carriedOut g).perform g with
    | ok result => exact congrArg _ (ih result.1)
    | error e => exact ih g

/-- A history without a clearing gives out the next numbers. -/
theorem grows_run (requests : List Request) {g : Graph}
    (hresets : ∀ r ∈ requests, r.resets = false) :
    g.adjacency.Grows (g.run requests).adjacency (g.grantedSizes requests) (g.issuedSpans requests)
      (g.grantedPairs requests) (g.issuedEdges requests) := by
  induction requests generalizing g with
  | nil => exact .refl _
  | cons r requests ih =>
    have hrun : g.run (r :: requests) = (r.apply g).run requests := rfl
    have hrest := fun r' hr' => hresets r' (List.mem_cons_of_mem r hr')
    rw [hrun, Request.apply]
    simp only [grantedSizes, issuedSpans, grantedPairs, issuedEdges] at ih ⊢
    cases hperform : (r.carriedOut g).perform g with
    | error e =>
      rw [granted, hperform]
      exact ih hrest
    | ok result =>
      rw [granted, hperform]
      simp only [List.flatMap_cons]
      have hkeeps : (r.carriedOut g).resets = false :=
        (Request.resets_carriedOut g r).trans (hresets r List.mem_cons_self)
      exact (grows_perform hperform hkeeps).trans (ih hrest)

/-- The numbers that a history gives out, if it begins with the given number of nodes and
with the given number of edges for each pair of nodes. -/
structure Numbered (g : Graph) (requests : List Request) (nodeCount : UInt32)
    (first : NodeId → NodeId → Nat) : Prop where
  /-- each addition of nodes yields as many as were asked for -/
  sizes : (g.issuedSpans requests).map NodeSpan.size = g.grantedSizes requests
  /-- new nodes come next to the nodes before them -/
  adjoin : NodeSpan.Adjoin nodeCount (g.run requests).adjacency.nodeCount (g.issuedSpans requests)
  /-- each addition of edges yields edges between the nodes that were asked for -/
  endpoints : (g.issuedEdges requests).map EdgeId.endpoints = g.grantedPairs requests
  /-- the edges of a pair are counted in the order in which they were added -/
  keys : ∀ u v, ((g.issuedEdges requests).filter fun e => decide (e.endpoints = (u, v))) =
    (List.range ((g.grantedPairs requests).count (u, v))).map fun i =>
      ⟨u, v, (first u v + i).toUInt32⟩
  /-- the nodes are those at the beginning and those that were given out -/
  nodes : ∀ n, (g.run requests).hasNode n = true ↔
    n.index < nodeCount ∨ ∃ s ∈ g.issuedSpans requests, s.contains n = true
  /-- the edges are those at the beginning and those that were given out -/
  edges : ∀ e, (g.run requests).hasEdge e = true ↔
    e.key.toNat < first e.source e.target ∨ e ∈ g.issuedEdges requests
  /-- what was given out stays, whatever comes after it -/
  kept : ∀ before after, requests = before ++ after →
    (∀ s ∈ g.issuedSpans before, ∀ n, s.contains n = true → (g.run requests).hasNode n = true) ∧
      ∀ e ∈ g.issuedEdges before, (g.run requests).hasEdge e = true

/-- The numbers of a history are those that its adjacency counts. -/
theorem numbered_of_resets {g : Graph} {requests : List Request}
    (hresets : ∀ r ∈ requests, r.resets = false) :
    g.Numbered requests g.adjacency.nodeCount g.adjacency.keyCount := by
  have hgrows := grows_run (g := g) requests hresets
  refine ⟨hgrows.sizes, hgrows.adjoin, hgrows.endpoints, hgrows.keys, hgrows.hasNode_iff,
    hgrows.hasEdge_iff, ?_⟩
  rintro before after rfl
  have hspans : g.issuedSpans before ⊆ g.issuedSpans (before ++ after) := by
    rw [issuedSpans, issuedSpans, granted_append, List.flatMap_append]
    exact List.subset_append_left _ _
  have hedges : g.issuedEdges before ⊆ g.issuedEdges (before ++ after) := by
    rw [issuedEdges, issuedEdges, granted_append, List.flatMap_append]
    exact List.subset_append_left _ _
  constructor
  · intro s hs n hn
    exact (hgrows.hasNode_iff n).2 (.inr ⟨s, hspans hs, hn⟩)
  · intro e he
    exact (hgrows.hasEdge_iff e).2 (.inr (hedges he))

/-- New nodes and edges are numbered without gaps, and no number is given out twice or taken
back: from 0 in a new graph, and in a graph made of parts from where the parts end. -/
theorem numbered_run (owner : Identity) (requests : List Request)
    (hresets : ∀ r ∈ requests, r.resets = false) :
    ((empty owner).Numbered requests 0 fun _ _ => 0) ∧
    ∀ nodeCount entries nodeProperties edgeProperties attributes g,
      ofParts owner nodeCount entries nodeProperties edgeProperties attributes = .ok g →
      g.Numbered requests nodeCount (keysTaken entries) := by
  constructor
  · exact numbered_of_resets hresets
  · intro nodeCount entries nodeProperties edgeProperties attributes g hmade
    obtain ⟨a, hadjacency, hrest⟩ := bind_eq_ok_iff.1 hmade
    obtain ⟨nodes, -, hrest⟩ := bind_eq_ok_iff.1 hrest
    obtain ⟨edges, -, hdone⟩ := bind_eq_ok_iff.1 hrest
    cases hdone
    have hpairs : (entries.map fun e => (e.1, e.2.1)).Nodup :=
      ((faultsAlong_entryFaults_eq_nil_iff nodeCount entries).1
        ((settles_ofEntries nodeCount entries).faults_eq_nil hadjacency).1).2
    obtain rfl := eq_recorded_of_ofEntries hadjacency
    have htaken : (recorded nodeCount entries).keyCount = keysTaken entries :=
      funext fun u => funext fun v => keyCount_recorded nodeCount hpairs u v
    have hnumbered := numbered_of_resets hresets
      (g := ⟨recorded nodeCount entries, nodes, edges, attributes⟩)
    rwa [htaken, nodeCount_recorded] at hnumbered

/-- Additions of all kinds, and between them requests that fail: an endpoint that does not
exist, alone and after a valid element, no nodes at all, and a removal. -/
def mixedAdditions : List Request :=
  [.addNodes 2, .addEdge ⟨0⟩ ⟨1⟩, .addEdge ⟨0⟩ ⟨9⟩, .addEdges [(⟨0⟩, ⟨1⟩, []), (⟨1⟩, ⟨9⟩, [])],
    .addEdges [(⟨0⟩, ⟨1⟩, [("cost", .int 1)]), (⟨1⟩, ⟨1⟩, []), (⟨0⟩, ⟨1⟩, [])], .addNodesWith [],
    .addNodesWith [[], [("turn", .null)]], .removeNode ⟨0⟩, .addNode, .addEdgeWith ⟨1⟩ ⟨1⟩ [],
    .addEdge ⟨0⟩ ⟨1⟩]

/-- The same additions in a new graph, and in a graph whose parts give five edges to one of
the pairs. -/
theorem numbered_run_mixedAdditions :
    ((empty ⟨0⟩).Numbered mixedAdditions 0 (fun _ _ => 0) ∧
      (empty ⟨0⟩).issuedEdges mixedAdditions = [⟨⟨0⟩, ⟨1⟩, 0⟩, ⟨⟨0⟩, ⟨1⟩, 1⟩, ⟨⟨1⟩, ⟨1⟩, 0⟩,
        ⟨⟨0⟩, ⟨1⟩, 2⟩, ⟨⟨1⟩, ⟨1⟩, 1⟩, ⟨⟨0⟩, ⟨1⟩, 3⟩] ∧
      (empty ⟨0⟩).issuedSpans mixedAdditions = [⟨0, 2⟩, ⟨2, 4⟩, ⟨4, 5⟩]) ∧
    ∃ g, ofParts ⟨0⟩ 2 [(⟨0⟩, ⟨1⟩, 4)] [] [] .empty = .ok g ∧
      g.Numbered mixedAdditions 2 (keysTaken [(⟨0⟩, ⟨1⟩, 4)]) ∧
      (g.issuedEdges mixedAdditions).map EdgeId.key = [5, 6, 0, 7, 1, 8] := by
  have hresets : ∀ r ∈ mixedAdditions, r.resets = false := by decide
  obtain ⟨hnew, hparts⟩ := numbered_run ⟨0⟩ mixedAdditions hresets
  exact ⟨⟨hnew, by decide, by decide⟩, _, rfl, hparts 2 _ [] [] .empty _ rfl, by decide⟩

end Graph

end StateGraph
