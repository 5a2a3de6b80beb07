import StateGraph.Proofs.Regrouping
import StateGraph.Proofs.Restore

set_option autoImplicit false

/-!
# What becomes of a snapshot that comes from anywhere

A snapshot that was not written by this library may list a source, a property, an element
or an attribute several times.  A pair of nodes that is listed twice is refused; sources
are brought together, and of everything else that is repeated the first place and the last
content are kept.  `Snapshot.normalForm` says so list by list, and `Snapshot.Admissible`
says what is refused.

`Snapshot.faults` are the reasons to refuse a snapshot, in the order in which they are
looked for.  Values are looked at before properties of one name are merged: a value on a
missing element is a fault also in a property that a later one replaces.
-/

namespace StateGraph

/-! ## Normal forms -/

namespace StoredProperty

variable {ε : Type} [DecidableEq ε]

/-- The stored property with one value for each element. -/
def normalForm (p : StoredProperty ε) : StoredProperty ε :=
  { p with values := merged Prod.fst p.values }

theorem ofProperty_toProperty (p : StoredProperty ε) : ofProperty p.toProperty = p.normalForm := by
  have hvalues : (OrderedMap.ofList p.values).toList = merged Prod.fst p.values :=
    OrderedMap.toList_ofList_eq_merged p.values
  unfold ofProperty toProperty Property.ofValues Property.explicit normalForm
  rw [hvalues]

theorem normalForm_ofProperty (p : Property ε) : (ofProperty p).normalForm = ofProperty p := by
  rw [← ofProperty_toProperty, toProperty_ofProperty]

/-- Merging does not hide a fault, and does not change which one comes first. -/
theorem valueFault?_toProperty (exists? : ε → Bool) (missing : String → ε → GraphError)
    (p : StoredProperty ε) :
    Catalog.valueFault? exists? missing p.toProperty.name p.toProperty.explicit =
      Catalog.valueFault? exists? missing p.name p.values := by
  have hkeys : ∀ values : List (ε × Value), Catalog.valueFault? exists? missing p.name values =
      ((values.map Prod.fst).find? fun e => !exists? e).map (missing p.name) := by
    intro values
    rw [Catalog.valueFault?, List.find?_map, Option.map_map]
    rfl
  have hexplicit : p.toProperty.explicit = merged Prod.fst p.values :=
    OrderedMap.toList_ofList_eq_merged p.values
  have hname : p.toProperty.name = p.name := rfl
  rw [hexplicit, hname, hkeys, hkeys, map_key_merged, find?_arrivals]

end StoredProperty

/-- Filed properties are merged by their names. -/
theorem Catalog.toList_filed {ε : Type} (owner : Identity) (ps : List (Property ε)) :
    (filed owner ps).toList = merged Property.name ps := by
  have hentries : (OrderedMap.ofList (ps.map fun p => (p.name, p))).toList =
      (merged Property.name ps).map fun p => (p.name, p) := by
    rw [OrderedMap.toList_ofList_eq_merged, merged_map]
  have hvalues := congrArg (List.map Prod.snd) hentries
  rw [List.map_map] at hvalues
  exact hvalues.trans (List.map_id _)

namespace Snapshot

/-- The entries of the adjacency, source by source. -/
def bySource (l : List (NodeId × NodeId × UInt32)) : List (NodeId × List (NodeId × UInt32)) :=
  (arrivals Prod.fst l).map fun u => (u, (l.filter fun e => decide (e.1 = u)).map Prod.snd)

theorem toList_groupEntries (l : List (NodeId × NodeId × UInt32)) :
    (groupEntries l).toList = bySource l := by
  refine (OrderedMap.toList_foldl_upsert_eq_map Prod.fst
    (fun (ts : List (NodeId × UInt32)) (e : NodeId × NodeId × UInt32) => ts ++ [e.2]) [] l).trans ?_
  refine List.map_congr_left fun u _ => ?_
  rw [foldl_concat]

/-- Entries with one for each pair are grouped when they are written. -/
theorem groups_recorded (nodeCount : UInt32) {l : List (NodeId × NodeId × UInt32)}
    (hpairs : (l.map fun e => (e.1, e.2.1)).Nodup) :
    (Adjacency.recorded nodeCount l).groups = bySource l := by
  rw [Adjacency.groups, Adjacency.targets_recorded, OrderedMap.toList_foldl_upsert_eq_map Prod.fst
    (fun (ts : OrderedMap NodeId UInt32) (e : NodeId × NodeId × UInt32) => ts.insert e.2.1 e.2.2)
    .empty, List.map_map]
  refine List.map_congr_left fun u _ => Prod.ext rfl ?_
  -- the targets of one source are different, and so none of them is merged
  have htargets : (((l.filter fun e => decide (e.1 = u)).map Prod.snd).map Prod.fst).Nodup := by
    rw [List.map_map]
    refine List.pairwise_map.2 (((List.pairwise_map.1 hpairs).filter _).imp_of_mem ?_)
    intro d e hd he hne heq
    have hsource : d.1 = e.1 := by
      rw [of_decide_eq_true (List.mem_filter.1 hd).2, of_decide_eq_true (List.mem_filter.1 he).2]
    exact hne (Prod.ext hsource heq)
  refine Eq.trans ?_ (OrderedMap.toList_ofList htargets)
  rw [OrderedMap.ofList, OrderedMap.insertMany, List.foldl_map]
  rfl

/-- The snapshot with its sources brought together and without repetitions. -/
def normalForm (s : Snapshot) : Snapshot :=
  { s with
    groups := bySource s.entries
    nodeProperties := (merged StoredProperty.name s.nodeProperties).map .normalForm
    edgeProperties := (merged StoredProperty.name s.edgeProperties).map .normalForm
    attributes := merged Prod.fst s.attributes }

/-! ## Admissible snapshots -/

/-- The number of edges that the entries stand for. -/
def edgeTotal (s : Snapshot) : Nat := (s.entries.map fun e => e.2.2.toNat + 1).sum

/-- What a snapshot must be like for a graph to be made of it. -/
structure Admissible (s : Snapshot) : Prop where
  kind : s.kind = graphKind
  /-- entries join nodes that exist -/
  endpoints : ∀ e ∈ s.entries, e.1.index < s.nodeCount ∧ e.2.1.index < s.nodeCount
  /-- no pair of nodes has two entries, in one group or in several -/
  distinct : (s.entries.map fun e => (e.1, e.2.1)).Nodup
  /-- values are on nodes that exist, in properties that are replaced too -/
  nodeValues : ∀ p ∈ s.nodeProperties, ∀ e ∈ p.values, e.1.index < s.nodeCount
  edgeValues : ∀ p ∈ s.edgeProperties, ∀ e ∈ p.values, Adjacency.covers s.entries e.1 = true
  counter : s.edgeCount.toNat = s.edgeTotal

/-- The reasons to refuse a snapshot, in the order in which they are looked for. -/
def faults (s : Snapshot) : List SnapshotError :=
  (if s.kind = graphKind then [] else [.wrongKind s.kind]) ++
    ((Graph.partFaults s.nodeCount s.entries (s.nodeProperties.map fun p => (p.name, p.values))
        (s.edgeProperties.map fun p => (p.name, p.values))).map .reconstruction ++
      if s.edgeCount.toNat = s.edgeTotal then []
      else [.edgeCountMismatch s.edgeCount s.edgeTotal])

theorem faults_eq_nil_iff (s : Snapshot) : s.faults = [] ↔ s.Admissible := by
  simp only [faults, List.append_eq_nil_iff, List.map_eq_nil_iff, Graph.partFaults_eq_nil_iff,
    List.forall_mem_map, ite_eq_left_iff, List.cons_ne_nil, imp_false, not_not]
  constructor
  · rintro ⟨hkind, ⟨⟨hendpoints, hdistinct⟩, hnodes, hedges⟩, hcounter⟩
    exact ⟨hkind, hendpoints, hdistinct, hnodes, hedges, hcounter⟩
  · rintro ⟨hkind, hendpoints, hdistinct, hnodes, hedges, hcounter⟩
    exact ⟨hkind, ⟨⟨hendpoints, hdistinct⟩, hnodes, hedges⟩, hcounter⟩

/-- The graph that is made of a snapshot if it is admissible. -/
def assembled (s : Snapshot) (owner : Identity) : Graph :=
  .assembled owner s.nodeCount s.entries (s.nodeProperties.map (·.toProperty))
    (s.edgeProperties.map (·.toProperty)) (.ofList s.attributes)

/-- A graph is made of a snapshot unless there is a reason to refuse it. -/
theorem settles_toGraph {s : Snapshot} (hfits : s.edgeTotal < 2 ^ 64) (owner : Identity) :
    Settles (s.toGraph owner) s.faults (· = s.assembled owner) := by
  have hparts := Graph.settles_ofParts owner s.nodeCount s.entries
    (s.nodeProperties.map (·.toProperty)) (s.edgeProperties.map (·.toProperty))
    (.ofList s.attributes)
  have hsame : Graph.partFaults s.nodeCount s.entries
      ((s.nodeProperties.map (·.toProperty)).map fun p => (p.name, p.explicit))
      ((s.edgeProperties.map (·.toProperty)).map fun p => (p.name, p.explicit)) =
        Graph.partFaults s.nodeCount s.entries (s.nodeProperties.map fun p => (p.name, p.values))
          (s.edgeProperties.map fun p => (p.name, p.values)) := by
    simp only [Graph.partFaults, List.filterMap_map, Function.comp_def,
      StoredProperty.valueFault?_toProperty]
  rw [hsame] at hparts
  have hcount : (s.assembled owner).edgeCount = s.edgeTotal :=
    Adjacency.edgeCount_recorded s.nodeCount s.entries
  unfold toGraph faults
  by_cases hkind : s.kind = graphKind
  · rw [if_neg (not_not_intro hkind), if_pos hkind, List.nil_append]
    cases hfaults : Graph.partFaults s.nodeCount s.entries
      (s.nodeProperties.map fun p => (p.name, p.values))
      (s.edgeProperties.map fun p => (p.name, p.values)) with
    | cons fault more =>
      rw [hfaults] at hparts
      rw [show Graph.ofParts _ _ _ _ _ _ = .error fault from hparts]
      rfl
    | nil =>
      rw [hfaults] at hparts
      obtain ⟨g, hmade, rfl⟩ := hparts.eq_ok
      rw [hmade]
      have hagree : (s.assembled owner).edgeCount.toUInt64 = s.edgeCount ↔
          s.edgeCount.toNat = s.edgeTotal := by
        rw [hcount, ← UInt64.toNat_inj, UInt64.toNat_ofNat_of_lt' hfits, eq_comm]
      show Settles (if (s.assembled owner).edgeCount.toUInt64 ≠ s.edgeCount then
        Except.error (SnapshotError.edgeCountMismatch s.edgeCount (s.assembled owner).edgeCount)
        else .ok (s.assembled owner)) _ _
      by_cases hcounter : s.edgeCount.toNat = s.edgeTotal
      · rw [if_neg (not_not_intro (hagree.2 hcounter)), if_pos hcounter]
        exact settles_ok rfl
      · rw [if_pos (mt hagree.1 hcounter), if_neg hcounter, hcount]
        rfl
  · rw [if_pos hkind, if_neg hkind]
    rfl

/-- What is made of an admissible snapshot is stored in normal form. -/
theorem Admissible.ofGraph_assembled {s : Snapshot} (hs : s.Admissible) (owner : Identity) :
    ofGraph (s.assembled owner) = s.normalForm := by
  have hmade := Adjacency.ofEntries_eq_ok hs.endpoints hs.distinct
  have hgroups : (ofGraph (s.assembled owner)).groups = bySource s.entries :=
    (groups_ofGraph (Adjacency.wellFormed_ofEntries hmade).toSound).trans
      (groups_recorded s.nodeCount hs.distinct)
  have hcount : (s.assembled owner).edgeCount.toUInt64 = s.edgeCount := by
    have htotal : (s.assembled owner).edgeCount = s.edgeTotal :=
      Adjacency.edgeCount_recorded s.nodeCount s.entries
    rw [htotal, ← hs.counter]
    exact UInt64.ofNat_toNat
  have hproperties : ∀ {ε : Type} [DecidableEq ε] (ps : List (StoredProperty ε)),
      (Catalog.filed owner (ps.map (·.toProperty))).toList.map StoredProperty.ofProperty =
        (merged StoredProperty.name ps).map .normalForm := by
    intro ε _ ps
    rw [Catalog.toList_filed, merged_map, List.map_map]
    exact List.map_congr_left fun p _ => StoredProperty.ofProperty_toProperty p
  have hnodes := hproperties s.nodeProperties
  have hedges := hproperties s.edgeProperties
  have hattributes : (OrderedMap.ofList s.attributes).toList = merged Prod.fst s.attributes :=
    OrderedMap.toList_ofList_eq_merged s.attributes
  have hnodeCount : (s.assembled owner).adjacency.nodeCount = s.nodeCount :=
    Adjacency.nodeCount_recorded s.nodeCount s.entries
  simp only [ofGraph, normalForm, Snapshot.mk.injEq]
  exact ⟨hs.kind.symm, hnodeCount, hcount, hgroups, hnodes, hedges, hattributes⟩

/-! ## Main results -/

/-- What happens to a snapshot of which a graph is made. -/
structure Normalizes (s : Snapshot) : Prop where
  accepted : ∀ owner, (∃ g, s.toGraph owner = .ok g) ↔ s.Admissible
  /-- a snapshot that is refused is refused for the first reason -/
  refused : ∀ owner e, s.toGraph owner = .error e ↔ s.faults.head? = some e
  stored : ∀ owner g, s.toGraph owner = .ok g → ofGraph g = s.normalForm
  /-- what is stored can be restored, and is then stored as it was -/
  again : ∀ owner g, s.toGraph owner = .ok g →
    ∀ owner', ∃ g', (ofGraph g).toGraph owner' = .ok g' ∧ ofGraph g' = ofGraph g

/-- Snapshots of graphs in order have nothing to merge. -/
theorem normalForm_ofGraph {g : Graph} (hsound : g.adjacency.Sound) {node? : NodeId → Bool}
    (hnodes : g.nodeCatalog.Within node?) {edge? : EdgeId → Bool}
    (hedges : g.edgeCatalog.Within edge?) : (ofGraph g).normalForm = ofGraph g := by
  have hproperties : ∀ {ε : Type} [DecidableEq ε] {exists? : ε → Bool} {c : Catalog ε},
      c.Within exists? →
        (merged StoredProperty.name (c.toList.map StoredProperty.ofProperty)).map
          StoredProperty.normalForm = c.toList.map StoredProperty.ofProperty := by
    intro ε _ exists? c hwithin
    have hnames : (c.toList.map Property.name).Nodup := by
      have hkeys := congrArg (List.map Prod.fst) hwithin.map_toList
      rw [List.map_map] at hkeys
      exact hkeys ▸ c.properties.nodup_keys
    have hmerged : merged Property.name c.toList = c.toList := merged_eq_self hnames
    rw [merged_map, show (fun p : Property ε => (StoredProperty.ofProperty p).name) = Property.name
      from rfl, hmerged, List.map_map]
    exact List.map_congr_left fun p _ => StoredProperty.normalForm_ofProperty p
  have hgroups : bySource (ofGraph g).entries = (ofGraph g).groups := by
    rw [entries_ofGraph hsound, ← toList_groupEntries]
    rfl
  have hattributes : merged Prod.fst g.attributes.toList = g.attributes.toList :=
    merged_eq_self g.attributes.nodup_keys
  rw [normalForm, hgroups]
  simp only [ofGraph, hproperties hnodes, hproperties hedges, hattributes]

/-- A snapshot that comes from anywhere is refused for the first reason that there is, or
else becomes a graph that is stored in normal form.  Snapshots of graphs are in normal form
already, whatever history the graphs have. -/
theorem normalizes :
    (∀ s : Snapshot, s.edgeTotal < 2 ^ 64 → s.Normalizes) ∧
      ∀ g : Graph, g.Origin → ∀ requests,
        (ofGraph (g.run requests)).normalForm = ofGraph (g.run requests) := by
  constructor
  · intro s hfits
    have hstored : ∀ owner g, s.toGraph owner = .ok g → s.Admissible ∧ g = s.assembled owner := by
      intro owner g hmade
      obtain ⟨hnil, hg⟩ := (settles_toGraph hfits owner).faults_eq_nil hmade
      exact ⟨(faults_eq_nil_iff s).1 hnil, hg⟩
    constructor
    case accepted =>
      refine fun owner => ⟨fun ⟨g, hmade⟩ => (hstored owner g hmade).1, fun hs => ?_⟩
      have hsettles := settles_toGraph hfits owner
      rw [(faults_eq_nil_iff s).2 hs] at hsettles
      obtain ⟨g, hmade, -⟩ := hsettles.eq_ok
      exact ⟨g, hmade⟩
    case refused => exact fun owner e => (settles_toGraph hfits owner).eq_error_iff e
    case stored =>
      intro owner g hmade
      obtain ⟨hs, rfl⟩ := hstored owner g hmade
      exact hs.ofGraph_assembled owner
    case again =>
      intro owner g hmade owner'
      have hparts := (Graph.toGraph_eq_ok_iff.1 hmade).2.1
      have hwell : g.WellFormed := Graph.wellFormed_ofParts hparts
      obtain ⟨b, hrebuilt, hagain⟩ := toGraph_ofGraph hwell
      exact ⟨_, hagain owner', ofGraph_rebuilt hrebuilt owner'⟩
  · intro g horigin requests
    have hwell : (g.run requests).WellFormed := horigin.wellFormed.run requests
    exact normalForm_ofGraph hwell.adjacency.toSound hwell.nodeProperties hwell.edgeProperties

/-- Sources in two groups, a group without targets, values and names that are repeated. -/
def repeating : Snapshot where
  kind := graphKind
  nodeCount := 2
  edgeCount := 4
  groups := [(⟨1⟩, []), (⟨0⟩, [(⟨1⟩, 1)]), (⟨1⟩, [(⟨1⟩, 0)]), (⟨0⟩, [(⟨0⟩, 0)])]
  nodeProperties := [⟨"turn", .null, [(⟨1⟩, .int 1), (⟨0⟩, .int 2), (⟨1⟩, .int 3)]⟩,
    ⟨"state", .null, [(⟨1⟩, .null)]⟩, ⟨"state", .int 0, []⟩]
  edgeProperties := []
  attributes := [("b", .int 1), ("a", .int 2), ("b", .int 3)]

theorem normalizes_repeating :
    repeating.edgeTotal < 2 ^ 64 ∧ repeating.Normalizes ∧ repeating.Admissible ∧
      repeating.normalForm = { repeating with
        groups := [(⟨0⟩, [(⟨1⟩, 1), (⟨0⟩, 0)]), (⟨1⟩, [(⟨1⟩, 0)])]
        nodeProperties := [⟨"turn", .null, [(⟨1⟩, .int 3), (⟨0⟩, .int 2)]⟩, ⟨"state", .int 0, []⟩]
        attributes := [("b", .int 3), ("a", .int 2)] } ∧
      (ofGraph ((Graph.empty ⟨0⟩).run [.addNode])).normalForm =
        ofGraph ((Graph.empty ⟨0⟩).run [.addNode]) := by
  have hfits : repeating.edgeTotal < 2 ^ 64 := by decide
  refine ⟨hfits, normalizes.1 repeating hfits, ?_, by decide +kernel, normalizes.2 _ (.new ⟨0⟩) _⟩
  exact (faults_eq_nil_iff repeating).1 (by decide +kernel)

end Snapshot

end StateGraph
