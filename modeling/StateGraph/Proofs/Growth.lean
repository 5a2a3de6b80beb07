import StateGraph.Proofs.Adjacency
import StateGraph.Proofs.Catalogs
import StateGraph.Proofs.Regrouping

set_option autoImplicit false

/-!
# Edges that are added one after another

Edges with values are added to a graph without edges.  The keys of a pair of nodes
are then given out in the order in which the edges of this pair come, whatever
comes between them, so the edge with key `k` is the `k`-th edge of its pair and
carries the values that came with it (`Graph.Grown`).

All of them can be added if no pair gets more edges than there are keys.  Then there
is room for them (`Graph.RoomFor`), and what comes with each is written on an edge of
its own.
-/

namespace StateGraph

/-- An edge to be added: its endpoints and its values. -/
structure NewEdge where
  source : NodeId
  target : NodeId
  values : List (String × Value)

/-- The edge of an element of a batch. -/
def NewEdge.ofEntry (entry : NodeId × NodeId × List (String × Value)) : NewEdge :=
  ⟨entry.1, entry.2.1, entry.2.2⟩

/-- Whether an edge joins two given nodes. -/
def NewEdge.joins (u v : NodeId) (d : NewEdge) : Bool := decide (d.source = u ∧ d.target = v)

namespace Graph

/-- The identifier of an edge if it is added next. -/
def nextEdge (g : Graph) (d : NewEdge) : EdgeId :=
  ⟨d.source, d.target, g.adjacency.nextKey d.source d.target⟩

/-- The graph with one more edge. -/
def withEdge (g : Graph) (d : NewEdge) : Graph :=
  { g with
    adjacency := g.adjacency.withEdge d.source d.target
    edgeCatalog := g.edgeCatalog.putMany (g.nextEdge d) d.values }

/-- The graph with more edges, one after another. -/
def withEdges (g : Graph) (ds : List NewEdge) : Graph := ds.foldl withEdge g

theorem withEdges_append (g : Graph) (ds₁ ds₂ : List NewEdge) :
    g.withEdges (ds₁ ++ ds₂) = (g.withEdges ds₁).withEdges ds₂ :=
  List.foldl_append

/-! ## What a new edge leaves as it is -/

@[simp] theorem hasNode_withEdges (g : Graph) (ds : List NewEdge) (n : NodeId) :
    (g.withEdges ds).hasNode n = g.hasNode n := by
  induction ds generalizing g with
  | nil => rfl
  | cons d ds ih => exact ih (g.withEdge d)

@[simp] theorem nodeCount_withEdges (g : Graph) (ds : List NewEdge) :
    (g.withEdges ds).nodeCount = g.nodeCount := by
  induction ds generalizing g with
  | nil => rfl
  | cons d ds ih => exact ih (g.withEdge d)

@[simp] theorem nodeCatalog_withEdges (g : Graph) (ds : List NewEdge) :
    (g.withEdges ds).nodeCatalog = g.nodeCatalog := by
  induction ds generalizing g with
  | nil => rfl
  | cons d ds ih => exact ih (g.withEdge d)

@[simp] theorem owner_edgeCatalog_withEdges (g : Graph) (ds : List NewEdge) :
    (g.withEdges ds).edgeCatalog.owner = g.edgeCatalog.owner := by
  induction ds generalizing g with
  | nil => rfl
  | cons d ds ih => exact (ih (g.withEdge d)).trans (Catalog.owner_putMany _ _ _)

@[simp] theorem names_edgeCatalog_withEdges (g : Graph) (ds : List NewEdge) :
    (g.withEdges ds).edgeCatalog.names = g.edgeCatalog.names := by
  induction ds generalizing g with
  | nil => rfl
  | cons d ds ih => exact (ih (g.withEdge d)).trans (Catalog.names_putMany _ _ _)

theorem default?_edgeCatalog_withEdges (g : Graph) (ds : List NewEdge) (name : String) :
    (g.withEdges ds).edgeCatalog.default? name = g.edgeCatalog.default? name := by
  induction ds generalizing g with
  | nil => rfl
  | cons d ds ih => exact (ih (g.withEdge d)).trans (Catalog.default?_putMany _ _ _ _)

theorem edgeCount_withEdges (g : Graph) (ds : List NewEdge) :
    (g.withEdges ds).edgeCount = g.edgeCount + ds.length := by
  induction ds generalizing g with
  | nil => rfl
  | cons d ds ih =>
    have hfirst : (g.withEdge d).edgeCount = g.edgeCount + 1 := rfl
    rw [List.length_cons, Nat.add_comm ds.length 1, ← Nat.add_assoc, ← hfirst]
    exact ih (g.withEdge d)

/-! ## Successors -/

/-- The successors of a node are the targets of its edges, in the order of arrival. -/
theorem successors_withEdges {g : Graph} {n : NodeId} (hnone : g.adjacency.successors n = [])
    (ds : List NewEdge) : (g.withEdges ds).adjacency.successors n =
      arrivals NewEdge.target (ds.filter fun d => decide (d.source = n)) := by
  induction ds using List.reverseRecOn with
  | nil => exact hnone
  | append_singleton ds d ih =>
    have hlast : (g.withEdges (ds ++ [d])).adjacency =
        (g.withEdges ds).adjacency.record d.source d.target
          ((g.withEdges ds).adjacency.nextKey d.source d.target) 1 := by
      rw [withEdges_append]
      rfl
    rw [hlast, Adjacency.successors_record, List.filter_append, ih]
    by_cases hd : d.source = n
    · have hself : [d].filter (fun d => decide (d.source = n)) = [d] := by simp [hd]
      rw [if_pos hd, hself, arrivals_concat]
    · have hother : [d].filter (fun d => decide (d.source = n)) = [] := by simp [hd]
      rw [if_neg hd, hother, List.append_nil]

/-! ## Room -/

/-- No pair of nodes gets more edges than there are keys, with those that it has. -/
def RoomFor (g : Graph) (ds : List NewEdge) : Prop :=
  ∀ u v, g.adjacency.keyCount u v + (ds.filter (NewEdge.joins u v)).length ≤ 2 ^ 32

theorem roomFor_nil (g : Graph) : g.RoomFor [] := fun u v => g.adjacency.keyCount_le u v

/-- A new edge counts as it did while it was still to come. -/
theorem keyCount_withEdge_add {g : Graph} {d : NewEdge}
    (hfull : g.adjacency.isFull d.source d.target = false) (ds : List NewEdge) (u v : NodeId) :
    (g.withEdge d).adjacency.keyCount u v + (ds.filter (NewEdge.joins u v)).length =
      g.adjacency.keyCount u v + ((d :: ds).filter (NewEdge.joins u v)).length := by
  have hcount : (g.withEdge d).adjacency.keyCount u v =
      if d.source = u ∧ d.target = v then g.adjacency.keyCount d.source d.target + 1
      else g.adjacency.keyCount u v := Adjacency.keyCount_withEdge hfull u v
  rw [hcount]
  by_cases hjoins : d.source = u ∧ d.target = v
  · rw [List.filter_cons_of_pos (show NewEdge.joins u v d = true from decide_eq_true hjoins),
      List.length_cons, if_pos hjoins, hjoins.1, hjoins.2]
    omega
  · rw [List.filter_cons_of_neg (show ¬ NewEdge.joins u v d = true from by
      rwa [NewEdge.joins, decide_eq_true_eq]), if_neg hjoins]

/-- There is room for edges if there is a key for the first, and with it room for the rest. -/
theorem roomFor_cons_iff (g : Graph) (d : NewEdge) (ds : List NewEdge) :
    g.RoomFor (d :: ds) ↔
      g.adjacency.isFull d.source d.target = false ∧ (g.withEdge d).RoomFor ds := by
  constructor
  · intro hroom
    have hfull : g.adjacency.isFull d.source d.target = false := by
      have hself : NewEdge.joins d.source d.target d = true := decide_eq_true ⟨rfl, rfl⟩
      have hpair := hroom d.source d.target
      rw [List.filter_cons_of_pos hself, List.length_cons] at hpair
      rw [Adjacency.isFull_eq_false_iff]
      omega
    refine ⟨hfull, fun u v => ?_⟩
    rw [keyCount_withEdge_add hfull]
    exact hroom u v
  · rintro ⟨hfull, hrest⟩ u v
    rw [← keyCount_withEdge_add hfull]
    exact hrest u v

theorem roomFor_append_iff (g : Graph) (ds₁ ds₂ : List NewEdge) :
    g.RoomFor (ds₁ ++ ds₂) ↔ g.RoomFor ds₁ ∧ (g.withEdges ds₁).RoomFor ds₂ := by
  induction ds₁ generalizing g with
  | nil => exact (and_iff_right g.roomFor_nil).symm
  | cons d ds₁ ih =>
    rw [List.cons_append, roomFor_cons_iff, roomFor_cons_iff, ih, and_assoc]
    rfl

/-! ## Keys and values -/

/-- The edges of a graph are the given ones: each pair has as many as come for it,
and the edge with key `k` carries what came with the `k`-th of them. -/
structure Grown (g : Graph) (ds : List NewEdge) : Prop where
  keyCount : ∀ u v, g.adjacency.keyCount u v = (ds.filter (NewEdge.joins u v)).length
  explicit : ∀ name ∈ g.edgeCatalog.names, ∀ e, g.edgeCatalog.explicit? name e =
    ((ds.filter (NewEdge.joins e.source e.target))[e.key.toNat]?).bind fun d =>
      AssocList.lookup name d.values

/-- The next edge of a pair comes after the others of the pair and does not count for
any other pair. -/
theorem filter_joins_append (u v : NodeId) (ds : List NewEdge) (d : NewEdge) :
    (ds ++ [d]).filter (NewEdge.joins u v) =
      if d.source = u ∧ d.target = v then ds.filter (NewEdge.joins u v) ++ [d]
      else ds.filter (NewEdge.joins u v) := by
  rw [List.filter_append]
  by_cases hpair : d.source = u ∧ d.target = v
  · have hjoins : NewEdge.joins u v d = true := decide_eq_true hpair
    simp [hjoins, hpair]
  · have hjoins : NewEdge.joins u v d = false := decide_eq_false hpair
    simp [hjoins, hpair]

/-- An element at the end is seen at its place only. -/
theorem getElem?_concat_of_ne {α : Type} {l : List α} {a : α} {i : Nat} (hne : i ≠ l.length) :
    (l ++ [a])[i]? = l[i]? := by
  rcases Nat.lt_or_gt_of_ne hne with hlt | hgt
  · exact List.getElem?_append_left hlt
  · rw [List.getElem?_eq_none (Nat.le_of_lt hgt), List.getElem?_eq_none]
    rw [List.length_append, List.length_singleton]
    exact hgt

/-- One more edge. -/
theorem Grown.withEdge {g : Graph} {ds : List NewEdge} (hgrown : g.Grown ds) {d : NewEdge}
    (hvalues : (d.values.map Prod.fst).Nodup)
    (hfull : g.adjacency.isFull d.source d.target = false) :
    (g.withEdge d).Grown (ds ++ [d]) := by
  have hcount := hgrown.keyCount d.source d.target
  have hkey := Adjacency.toNat_nextKey hfull
  rw [hcount] at hkey
  constructor
  · intro u v
    rw [filter_joins_append]
    show (g.adjacency.withEdge d.source d.target).keyCount u v = _
    rw [Adjacency.keyCount_withEdge hfull]
    split
    · rename_i hpair
      rw [List.length_append, List.length_singleton, ← hpair.1, ← hpair.2, hcount]
    · exact hgrown.keyCount u v
  · intro name hname e
    have hold : name ∈ g.edgeCatalog.names := by
      rwa [show (g.withEdge d).edgeCatalog.names = g.edgeCatalog.names from
        Catalog.names_putMany _ _ _] at hname
    show (g.edgeCatalog.putMany (g.nextEdge d) d.values).explicit? name e = _
    rw [Catalog.explicit?_putMany _ _ _ hvalues hold, hgrown.explicit name hold,
      filter_joins_append]
    by_cases hnew : g.nextEdge d = e
    · -- the key of the new edge is the number of edges before it in its pair
      subst hnew
      have hlast : (g.nextEdge d).key.toNat =
          (ds.filter (NewEdge.joins d.source d.target)).length := hkey
      rw [if_pos rfl, if_pos ⟨rfl, rfl⟩, hlast]
      rw [show (g.nextEdge d).source = d.source from rfl,
        show (g.nextEdge d).target = d.target from rfl, List.getElem?_concat_length,
        List.getElem?_eq_none (Nat.le_refl _), Option.bind_none, Option.or_none]
      rfl
    · rw [if_neg hnew]
      by_cases hpair : d.source = e.source ∧ d.target = e.target
      · have hplace : e.key.toNat ≠ (ds.filter (NewEdge.joins e.source e.target)).length := by
          intro heq
          rw [← hpair.1, ← hpair.2, ← hkey] at heq
          exact hnew (by
            rw [nextEdge, UInt32.toNat_inj.1 heq.symm, hpair.1, hpair.2])
        rw [if_pos hpair, getElem?_concat_of_ne hplace]
      · rw [if_neg hpair]

/-- A graph without edges and without values on edges. -/
theorem grown_nil {g : Graph} (hnone : ∀ u v, g.adjacency.highestKey u v = none)
    (hvalues : ∀ name e, g.edgeCatalog.explicit? name e = none) : g.Grown [] where
  keyCount u v := by
    rw [Adjacency.keyCount, hnone]
    rfl
  explicit name _ e := hvalues name e

/-- All edges for which there is room in a graph without any. -/
theorem Grown.withEdges (after : List NewEdge) {g : Graph} {ds : List NewEdge} (hgrown : g.Grown ds)
    (hvalues : ∀ d ∈ after, (d.values.map Prod.fst).Nodup) (hroom : g.RoomFor after) :
    (g.withEdges after).Grown (ds ++ after) := by
  induction after generalizing g ds with
  | nil => rwa [List.append_nil]
  | cons d after ih =>
    obtain ⟨hfull, hrest⟩ := (roomFor_cons_iff g d after).1 hroom
    have hfirst := hgrown.withEdge (hvalues d List.mem_cons_self) hfull
    rw [List.append_cons]
    exact ih hfirst (fun d' hd' => hvalues d' (List.mem_cons_of_mem d hd')) hrest

end Graph

end StateGraph
