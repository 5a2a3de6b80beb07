import Mathlib.Data.List.Induction
import StateGraph.Proofs.Adjacency
import StateGraph.Proofs.Catalogs

set_option autoImplicit false

/-!
# Graphs made of parts

Parts are checked one after another: the entries of the adjacency, then the values on
nodes, then those on edges.  `Graph.partFaults` lists all that is wrong with them, in this
order, read off the parts themselves; `Graph.assembled` is what they make if nothing is.
The request that makes a graph of its parts is described by the two
(`Graph.settles_ofParts`).
-/

namespace StateGraph

namespace Adjacency

/-! ## Adjacencies from entries -/

/-- Writes one entry. -/
def recordEntry (a : Adjacency) (e : NodeId × NodeId × UInt32) : Adjacency :=
  a.record e.1 e.2.1 e.2.2 (e.2.2.toNat + 1)

/-- The adjacency in which the entries are written one after another. -/
def recorded (nodeCount : UInt32) (l : List (NodeId × NodeId × UInt32)) : Adjacency :=
  l.foldl recordEntry (isolated nodeCount)

theorem recorded_concat (nodeCount : UInt32) (l : List (NodeId × NodeId × UInt32))
    (e : NodeId × NodeId × UInt32) :
    recorded nodeCount (l ++ [e]) = (recorded nodeCount l).recordEntry e := by
  rw [recorded, List.foldl_append]
  rfl

/-- The targets of a written list of entries. -/
theorem targets_recorded (nodeCount : UInt32) (l : List (NodeId × NodeId × UInt32)) :
    (recorded nodeCount l).targets =
      l.foldl (fun m e => m.upsert e.1 fun ts => (ts.getD .empty).insert e.2.1 e.2.2) .empty :=
  (List.foldl_hom targets fun _ _ => rfl).symm

@[simp] theorem nodeCount_recorded (nodeCount : UInt32) (l : List (NodeId × NodeId × UInt32)) :
    (recorded nodeCount l).nodeCount = nodeCount := by
  induction l using List.reverseRecOn with
  | nil => rfl
  | append_singleton l e ih => rw [recorded_concat, recordEntry, record, ih]

theorem hasNode_recorded (nodeCount : UInt32) (l : List (NodeId × NodeId × UInt32)) (n : NodeId) :
    (recorded nodeCount l).hasNode n = decide (n.index < nodeCount) := by
  rw [hasNode, nodeCount_recorded]

/-- All edges that the entries stand for are counted. -/
theorem edgeCount_recorded (nodeCount : UInt32) (l : List (NodeId × NodeId × UInt32)) :
    (recorded nodeCount l).edgeCount = (l.map fun e => e.2.2.toNat + 1).sum := by
  induction l using List.reverseRecOn with
  | nil => rfl
  | append_singleton l e ih =>
    rw [recorded_concat, recordEntry, edgeCount_record, ih, List.map_append, List.sum_append]
    simp

/-- A pair of nodes has a highest key if one of the entries is for it. -/
theorem isSome_highestKey_recorded (nodeCount : UInt32) (l : List (NodeId × NodeId × UInt32))
    (u v : NodeId) : ((recorded nodeCount l).highestKey u v).isSome = true ↔
      (u, v) ∈ l.map fun e => (e.1, e.2.1) := by
  induction l using List.reverseRecOn with
  | nil => exact iff_of_false Bool.false_ne_true List.not_mem_nil
  | append_singleton l e ih =>
    rw [recorded_concat, recordEntry, highestKey_record, List.map_append, List.mem_append, ← ih]
    by_cases hpair : e.1 = u ∧ e.2.1 = v
    · simp [hpair]
    · have hother : (u, v) ≠ (e.1, e.2.1) := fun heq => by
        cases heq
        exact hpair ⟨rfl, rfl⟩
      simp [hpair, hother]

/-- With one entry for each pair, the highest keys are those of the entries. -/
theorem highestKey_recorded_iff {nodeCount : UInt32} {l : List (NodeId × NodeId × UInt32)}
    (hpairs : (l.map fun e => (e.1, e.2.1)).Nodup) (u v : NodeId) (highest : UInt32) :
    (recorded nodeCount l).highestKey u v = some highest ↔ (u, v, highest) ∈ l := by
  induction l using List.reverseRecOn with
  | nil => exact iff_of_false nofun List.not_mem_nil
  | append_singleton l e ih =>
    rw [List.map_append, List.nodup_append] at hpairs
    obtain ⟨hbefore, -, hnew⟩ := hpairs
    rw [recorded_concat, recordEntry, highestKey_record, List.mem_append, List.mem_singleton]
    by_cases hpair : e.1 = u ∧ e.2.1 = v
    · obtain ⟨rfl, rfl⟩ := hpair
      have hfresh : (e.1, e.2.1, highest) ∉ l := fun hmem =>
        hnew _ (List.mem_map_of_mem hmem) _ (by simp) rfl
      simp [hfresh, Prod.ext_iff, eq_comm]
    · have hother : (u, v, highest) ≠ e := fun heq => by
        cases heq
        exact hpair ⟨rfl, rfl⟩
      rw [if_neg hpair, ih hbefore, or_iff_left hother]

/-- Whether one of the entries stands for an edge. -/
def covers (l : List (NodeId × NodeId × UInt32)) (e : EdgeId) : Bool :=
  l.any fun d => decide (d.1 = e.source ∧ d.2.1 = e.target ∧ e.key ≤ d.2.2)

theorem hasEdge_recorded (nodeCount : UInt32) {l : List (NodeId × NodeId × UInt32)}
    (hpairs : (l.map fun e => (e.1, e.2.1)).Nodup) (e : EdgeId) :
    (recorded nodeCount l).hasEdge e = covers l e := by
  rw [Bool.eq_iff_iff, hasEdge_iff, covers, List.any_eq_true]
  simp only [highestKey_recorded_iff hpairs, decide_eq_true_eq]
  constructor
  · rintro ⟨highest, hmem, hkey⟩
    exact ⟨_, hmem, rfl, rfl, hkey⟩
  · rintro ⟨⟨u, v, highest⟩, hmem, rfl, rfl, hkey⟩
    exact ⟨highest, hmem, hkey⟩

/-- What is wrong with an entry on its own. -/
def outsideFaults (nodeCount : UInt32) (e : NodeId × NodeId × UInt32) : List GraphError :=
  if e.1.index < nodeCount ∧ e.2.1.index < nodeCount then [] else [.adjacencyOutside e.1 e.2.1]

/-- What is wrong with an entry, given the entries before it. -/
def entryFaults (nodeCount : UInt32) (before : List (NodeId × NodeId × UInt32))
    (e : NodeId × NodeId × UInt32) : List GraphError :=
  outsideFaults nodeCount e ++
    repeatFaults (fun e => (e.1, e.2.1)) (fun e => .adjacencyRepeated e.1 e.2.1) before e

/-- Nothing is wrong with entries that join nodes that exist, one for each pair. -/
theorem faultsAlong_entryFaults_eq_nil_iff (nodeCount : UInt32)
    (l : List (NodeId × NodeId × UInt32)) : faultsAlong (entryFaults nodeCount) [] l = [] ↔
      (∀ e ∈ l, e.1.index < nodeCount ∧ e.2.1.index < nodeCount) ∧
        (l.map fun e => (e.1, e.2.1)).Nodup := by
  refine (faultsAlong_eq_nil_iff_nodup (fun e => (e.1, e.2.1)) (outsideFaults nodeCount)
    (fun e => .adjacencyRepeated e.1 e.2.1) [] List.nodup_nil l).trans (and_congr_left' ?_)
  refine forall₂_congr fun e _ => ?_
  unfold outsideFaults
  split <;> simp_all

/-- The entries are written one after another, up to the first with a fault. -/
theorem settles_ofEntries (nodeCount : UInt32) (l : List (NodeId × NodeId × UInt32)) :
    Settles (ofEntries nodeCount l) (faultsAlong (entryFaults nodeCount) [] l)
      (· = recorded nodeCount l) := by
  refine settles_foldlM (fun before a => a = recorded nodeCount before) l ?_ rfl
  rintro before ⟨u, v, highest⟩ after _ - rfl
  have hnodes : ((recorded nodeCount before).hasNode u && (recorded nodeCount before).hasNode v) =
      true ↔ u.index < nodeCount ∧ v.index < nodeCount := by
    simp [hasNode_recorded]
  have hkey := isSome_highestKey_recorded nodeCount before u v
  simp only [addEntry, entryFaults, outsideFaults, repeatFaults]
  by_cases hinside : u.index < nodeCount ∧ v.index < nodeCount
  · rw [if_pos (hnodes.2 hinside), if_pos hinside, List.nil_append]
    by_cases hold : (u, v) ∈ before.map fun d => (d.1, d.2.1)
    · rw [if_pos (hkey.2 hold), if_pos hold]
      rfl
    · rw [if_neg (mt hkey.1 hold), if_neg hold]
      exact settles_ok (recorded_concat nodeCount before (u, v, highest)).symm
  · rw [if_neg (mt hnodes.1 hinside), if_neg hinside]
    rfl

/-- Entries without faults are all written. -/
theorem ofEntries_eq_ok {nodeCount : UInt32} {l : List (NodeId × NodeId × UInt32)}
    (hnodes : ∀ e ∈ l, e.1.index < nodeCount ∧ e.2.1.index < nodeCount)
    (hpairs : (l.map fun e => (e.1, e.2.1)).Nodup) :
    ofEntries nodeCount l = .ok (recorded nodeCount l) := by
  have hsettles := settles_ofEntries nodeCount l
  rw [(faultsAlong_entryFaults_eq_nil_iff nodeCount l).2 ⟨hnodes, hpairs⟩] at hsettles
  obtain ⟨a, hmade, rfl⟩ := hsettles.eq_ok
  exact hmade

/-- What is made of entries is what they are written into. -/
theorem eq_recorded_of_ofEntries {nodeCount : UInt32} {l : List (NodeId × NodeId × UInt32)}
    {a : Adjacency} (hmade : ofEntries nodeCount l = .ok a) : a = recorded nodeCount l :=
  ((settles_ofEntries nodeCount l).faults_eq_nil hmade).2

end Adjacency

/-! ## Properties -/

namespace Catalog

variable {ε : Type}

/-- What is wrong with explicit values: the first that is on an element that does not
exist. -/
def valueFault? (exists? : ε → Bool) (missing : String → ε → GraphError) (name : String)
    (values : List (ε × Value)) : Option GraphError :=
  (values.find? fun e => !exists? e.1).map fun e => missing name e.1

theorem valueFault?_eq_none_iff (exists? : ε → Bool) (missing : String → ε → GraphError)
    (name : String) (values : List (ε × Value)) :
    valueFault? exists? missing name values = none ↔ ∀ e ∈ values, exists? e.1 = true := by
  simp [valueFault?]

/-- The properties are filed one after another, up to the first with a fault. -/
theorem settles_fileAll (exists? : ε → Bool) (missing : String → ε → GraphError)
    (ps : List (Property ε)) (c : Catalog ε) :
    Settles (c.fileAll exists? missing ps)
      (ps.filterMap fun p => valueFault? exists? missing p.name p.explicit)
      (· = ⟨c.owner, c.properties.insertMany (ps.map fun p => (p.name, p))⟩) := by
  induction ps generalizing c with
  | nil => exact settles_ok rfl
  | cons p ps ih =>
    rw [fileAll, List.filterMap_cons, valueFault?]
    cases p.explicit.find? fun e => !exists? e.1 with
    | some e => rfl
    | none => exact ih (c.file p).1

/-- Properties with values on existing elements are all filed. -/
theorem fileAll_eq_ok {exists? : ε → Bool} {missing : String → ε → GraphError}
    (ps : List (Property ε)) (c : Catalog ε)
    (hvalues : ∀ p ∈ ps, ∀ e ∈ p.values.keys, exists? e = true) :
    c.fileAll exists? missing ps =
      .ok ⟨c.owner, c.properties.insertMany (ps.map fun p => (p.name, p))⟩ := by
  have hsettles := settles_fileAll exists? missing ps c
  rw [List.filterMap_eq_nil_iff.2] at hsettles
  · obtain ⟨d, hfiled, rfl⟩ := hsettles.eq_ok
    exact hfiled
  · intro p hp
    rw [valueFault?_eq_none_iff]
    exact fun e he => hvalues p hp e.1 (OrderedMap.mem_keys_of_mem he)

/-- The catalog in which properties are filed one after another. -/
def filed (owner : Identity) (ps : List (Property ε)) : Catalog ε :=
  ⟨owner, .ofList (ps.map fun p => (p.name, p))⟩

end Catalog

/-! ## Graphs -/

namespace Graph

/-- The graph that is made of parts if nothing is wrong with them. -/
def assembled (owner : Identity) (nodeCount : UInt32) (entries : List (NodeId × NodeId × UInt32))
    (nodeProperties : List (Property NodeId)) (edgeProperties : List (Property EdgeId))
    (attributes : Attributes) : Graph :=
  ⟨.recorded nodeCount entries, .filed owner nodeProperties, .filed owner edgeProperties,
    attributes⟩

/-- What is wrong with parts, in the order in which they are checked.  Of a property its
name and its explicit values are looked at. -/
def partFaults (nodeCount : UInt32) (entries : List (NodeId × NodeId × UInt32))
    (nodeValues : List (String × List (NodeId × Value)))
    (edgeValues : List (String × List (EdgeId × Value))) : List GraphError :=
  faultsAlong (Adjacency.entryFaults nodeCount) [] entries ++
    ((nodeValues.filterMap fun p =>
        Catalog.valueFault? (fun n => decide (n.index < nodeCount)) .valueOnMissingNode p.1 p.2) ++
      edgeValues.filterMap fun p =>
        Catalog.valueFault? (Adjacency.covers entries) .valueOnMissingEdge p.1 p.2)

theorem partFaults_eq_nil_iff (nodeCount : UInt32) (entries : List (NodeId × NodeId × UInt32))
    (nodeValues : List (String × List (NodeId × Value)))
    (edgeValues : List (String × List (EdgeId × Value))) :
    partFaults nodeCount entries nodeValues edgeValues = [] ↔
      ((∀ e ∈ entries, e.1.index < nodeCount ∧ e.2.1.index < nodeCount) ∧
        (entries.map fun e => (e.1, e.2.1)).Nodup) ∧
      (∀ p ∈ nodeValues, ∀ e ∈ p.2, e.1.index < nodeCount) ∧
        ∀ p ∈ edgeValues, ∀ e ∈ p.2, Adjacency.covers entries e.1 = true := by
  simp only [partFaults, List.append_eq_nil_iff, List.filterMap_eq_nil_iff,
    Adjacency.faultsAlong_entryFaults_eq_nil_iff, Catalog.valueFault?_eq_none_iff,
    decide_eq_true_eq]

/-- The parts are put together unless something is wrong with them. -/
theorem settles_ofParts (owner : Identity) (nodeCount : UInt32)
    (entries : List (NodeId × NodeId × UInt32)) (nodeProperties : List (Property NodeId))
    (edgeProperties : List (Property EdgeId)) (attributes : Attributes) :
    Settles (ofParts owner nodeCount entries nodeProperties edgeProperties attributes)
      (partFaults nodeCount entries (nodeProperties.map fun p => (p.name, p.explicit))
        (edgeProperties.map fun p => (p.name, p.explicit)))
      (· = assembled owner nodeCount entries nodeProperties edgeProperties attributes) := by
  have hadjacency := Adjacency.settles_ofEntries nodeCount entries
  unfold ofParts partFaults
  cases hfaults : faultsAlong (Adjacency.entryFaults nodeCount) [] entries with
  | cons fault more =>
    rw [hfaults] at hadjacency
    rw [show Adjacency.ofEntries nodeCount entries = .error fault from hadjacency]
    rfl
  | nil =>
    rw [hfaults] at hadjacency
    obtain ⟨a, hmade, rfl⟩ := hadjacency.eq_ok
    have hpairs := ((Adjacency.faultsAlong_entryFaults_eq_nil_iff nodeCount entries).1 hfaults).2
    have hnodes := funext (Adjacency.hasNode_recorded nodeCount entries)
    have hedges := funext (Adjacency.hasEdge_recorded nodeCount hpairs)
    rw [hmade, ok_bind, List.nil_append, List.filterMap_map, List.filterMap_map, hnodes, hedges]
    refine (Catalog.settles_fileAll _ _ nodeProperties _).bind fun c hc => ?_
    rw [← List.append_nil (List.filterMap _ edgeProperties)]
    refine (Catalog.settles_fileAll _ _ edgeProperties _).bind fun d hd => ?_
    rw [hc, hd]
    exact settles_ok rfl

end Graph

end StateGraph
