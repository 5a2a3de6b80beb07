import StateGraph.Proofs.EdgeViews
import StateGraph.Proofs.Notes
import StateGraph.Transition.Reopen

set_option autoImplicit false

/-!
# Which graphs are reopened

Reopening asks a graph for the attributes of a compiled graph and for a node property that
holds states, and goes over the nodes as long as their states are new.  `metadataFaults` and
`repeatedFaults` list what it finds in the order in which it looks.  A graph is accepted exactly
if there is nothing to find, and then the index of states lists its nodes in order
(`TransitionSystem.settles_ofGraph`).
-/

namespace StateGraph.TransitionSystem

/-! ## What a graph has to say of itself -/

/-- A graph says of itself what is not in its nodes and edges. -/
structure Metadata (g : Graph) : Prop where
  kind : ∃ b : Branching, g.attribute? kindName = some (.text b.name)
  turnBased : ∃ b, g.attribute? turnBasedName = some (.bool b)
  actions : ∃ items, g.attribute? actionsName = some (.list items)
  atoms : g.attribute? atomsName = none ∨ g.attribute? atomsName = some .null ∨
    ∃ atoms, g.attribute? atomsName = some (.labels atoms)
  state : Schema.stateName ∈ g.nodeCatalog.names

/-- What is wrong with an attribute that must be of some kind. -/
def missingFaults {β : Type} (g : Graph) (name : String) (view : Value → Option β) :
    List MetadataFault :=
  match (g.attribute? name).bind view with
  | none => [.missing name]
  | some _ => []

/-- What is wrong with the kind of branching. -/
def kindFaults (g : Graph) : List MetadataFault :=
  match (g.attribute? kindName).bind Value.asText? with
  | none => [.missing kindName]
  | some name =>
    match Branching.ofName? name with
    | none => [.unknownKind name]
    | some _ => []

/-- What is wrong with the propositions, which need not be there. -/
def atomsFaults (g : Graph) : List MetadataFault :=
  match g.attribute? atomsName with
  | none | some .null | some (.labels _) => []
  | some other => [.notLabels atomsName other]

/-- What is wrong with the node property that holds states. -/
def propertyFaults (g : Graph) : List MetadataFault :=
  if Schema.stateName ∈ g.nodeCatalog.names then [] else [.noNodeProperty Schema.stateName]

/-- Everything that a graph does not say of itself although it should, in the order in which it
is looked for. -/
def metadataFaults (g : Graph) : List MetadataFault :=
  kindFaults g ++ (missingFaults g turnBasedName Value.asBool? ++
    (missingFaults g actionsName Value.asList? ++ (atomsFaults g ++ propertyFaults g)))

theorem missingFaults_eq_nil_iff {β : Type} {g : Graph} {name : String} {view : Value → Option β} :
    missingFaults g name view = [] ↔ ∃ v, g.attribute? name = some v ∧ (view v).isSome = true := by
  unfold missingFaults
  cases g.attribute? name with
  | none => simp
  | some v => cases hview : view v <;> simp [hview]

theorem kindFaults_eq_nil_iff {g : Graph} : kindFaults g = [] ↔
    ∃ b : Branching, g.attribute? kindName = some (.text b.name) := by
  have hknown : ∀ name, (match Branching.ofName? name with
      | none => [MetadataFault.unknownKind name]
      | some _ => []) = [] ↔ ∃ b : Branching, name = b.name := by
    intro name
    simp only [← Branching.ofName?_eq_some_iff]
    cases Branching.ofName? name <;> simp
  unfold kindFaults
  cases g.attribute? kindName with
  | none => simp
  | some v => cases v <;> simp [Value.asText?, hknown]

theorem atomsFaults_eq_nil_iff {g : Graph} : atomsFaults g = [] ↔
    g.attribute? atomsName = none ∨ g.attribute? atomsName = some .null ∨
      ∃ atoms, g.attribute? atomsName = some (.labels atoms) := by
  unfold atomsFaults
  cases g.attribute? atomsName with
  | none => simp
  | some v => cases v <;> simp

/-- A graph has its metadata if there is nothing wrong with it. -/
theorem metadataFaults_eq_nil_iff (g : Graph) : metadataFaults g = [] ↔ Metadata g := by
  have hbool : ∀ v : Value, v.asBool?.isSome = true ↔ ∃ b, v = .bool b := by
    intro v
    cases v <;> simp [Value.asBool?]
  have hlist : ∀ v : Value, v.asList?.isSome = true ↔ ∃ items, v = .list items := by
    intro v
    cases v <;> simp [Value.asList?]
  simp only [metadataFaults, List.append_eq_nil_iff, kindFaults_eq_nil_iff,
    missingFaults_eq_nil_iff, hbool, hlist, atomsFaults_eq_nil_iff, propertyFaults,
    ite_eq_left_iff, List.cons_ne_self]
  constructor
  · rintro ⟨hkind, ⟨_, hturn, b, rfl⟩, ⟨_, hactions, items, rfl⟩, hatoms, hstate⟩
    exact {
      kind := hkind
      turnBased := ⟨b, hturn⟩
      actions := ⟨items, hactions⟩
      atoms := hatoms
      state := by_contra hstate }
  · rintro ⟨hkind, ⟨b, hturn⟩, ⟨items, hactions⟩, hatoms, hstate⟩
    exact ⟨hkind, ⟨_, hturn, b, rfl⟩, ⟨_, hactions, items, rfl⟩, hatoms, fun hno => hno hstate⟩

variable {g : Graph}

/-- Faults of metadata as faults of a reopening. -/
def refusals (faults : List MetadataFault) : List CompileError := faults.map .missingMetadata

theorem settles_readBranching (g : Graph) :
    Settles (readBranching g) (refusals (kindFaults g)) fun _ => True := by
  unfold readBranching kindFaults
  cases (g.attribute? kindName).bind Value.asText? with
  | none => rfl
  | some name =>
    simp only
    cases Branching.ofName? name with
    | none => rfl
    | some b => exact settles_ok trivial

theorem settles_readTurnBased (g : Graph) :
    Settles (readTurnBased g) (refusals (missingFaults g turnBasedName Value.asBool?))
      fun _ => True := by
  unfold readTurnBased missingFaults
  cases (g.attribute? turnBasedName).bind Value.asBool? with
  | none => rfl
  | some b => exact settles_ok trivial

theorem settles_readActions (g : Graph) :
    Settles (readActions g) (refusals (missingFaults g actionsName Value.asList?))
      fun _ => True := by
  unfold readActions missingFaults
  cases (g.attribute? actionsName).bind Value.asList? with
  | none => rfl
  | some items => exact settles_ok trivial

theorem settles_readAtoms (g : Graph) :
    Settles (readAtoms g) (refusals (atomsFaults g)) fun _ => True := by
  unfold readAtoms atomsFaults
  cases g.attribute? atomsName with
  | none => exact settles_ok trivial
  | some v =>
    cases v with
    | null => exact settles_ok trivial
    | labels atoms => exact settles_ok trivial
    | _ => rfl

/-! ## The states that nodes hold -/

/-- The state that a node holds: a value of its own, or else the default. -/
def stateIn (g : Graph) (n : NodeId) : Value :=
  (g.nodeCatalog.explicit? Schema.stateName n).getD
    ((g.nodeCatalog.default? Schema.stateName).getD .null)

/-- No two nodes hold the same state. -/
def DistinctStates (g : Graph) : Prop :=
  ∀ m n, g.hasNode m = true → g.hasNode n = true → stateIn g m = stateIn g n → m = n

/-- States that came before, in the order of their nodes. -/
def repeatedFaults (g : Graph) : List CompileError :=
  faultsAlong (repeatFaults (stateIn g) fun n => .duplicateState (stateIn g n).display) []
    g.nodes.toList

/-- Nothing is repeated along nodes with different states. -/
theorem faultsAlong_repeatFaults_eq_nil_iff (g : Graph) (l : List NodeId) :
    faultsAlong (repeatFaults (stateIn g) fun n =>
      CompileError.duplicateState (stateIn g n).display) [] l = [] ↔ (l.map (stateIn g)).Nodup :=
  (faultsAlong_eq_nil_iff_nodup (stateIn g) (fun _ => [])
    (fun n => CompileError.duplicateState (stateIn g n).display) [] List.nodup_nil l).trans
      (and_iff_right fun _ _ => rfl)

theorem repeatedFaults_eq_nil_iff (g : Graph) : repeatedFaults g = [] ↔ DistinctStates g := by
  rw [repeatedFaults, faultsAlong_repeatFaults_eq_nil_iff,
    List.nodup_map_iff_inj_on (NodeSpan.nodup_toList _)]
  simp only [Graph.nodes, Adjacency.mem_nodes_toList_iff]
  exact ⟨fun h m n hm hn => h m hm n hn, fun h m hm n hn => h m n hm hn⟩

/-- The first node whose state came before is reported. -/
theorem exists_of_head?_repeatedFaults {g : Graph} {e : CompileError}
    (he : (repeatedFaults g).head? = some e) :
    ∃ before n after, g.nodes.toList = before ++ n :: after ∧ (before.map (stateIn g)).Nodup ∧
      stateIn g n ∈ before.map (stateIn g) ∧ e = .duplicateState (stateIn g n).display := by
  obtain ⟨before, n, after, hsplit, hnone, hhead⟩ := exists_of_head?_faultsAlong he
  rw [List.nil_append, repeatFaults] at hhead
  split at hhead
  · rename_i hold
    cases hhead
    exact ⟨before, n, after, hsplit, (faultsAlong_repeatFaults_eq_nil_iff g before).1 hnone, hold,
      rfl⟩
  · cases hhead

/-- Reading the state of a node gives what it holds. -/
theorem nodeValueByName_stateName {g : Graph} (hname : Schema.stateName ∈ g.nodeCatalog.names)
    {n : NodeId} (hn : g.hasNode n = true) :
    g.nodeValueByName Schema.stateName n = .ok (stateIn g n) :=
  Catalog.readByName_of_mem hname hn

/-- A node gets an entry, unless its state has one. -/
theorem settles_addNode {g : Graph} {state : Handle NodeId} {before : List NodeId}
    {index : OrderedMap Value NodeId} {n : NodeId}
    (hread : g.nodeValue state n = .ok (stateIn g n))
    (hindex : index.toList = before.map fun n => (stateIn g n, n)) :
    Settles (addNode g state index n)
      (repeatFaults (stateIn g) (fun n => .duplicateState (stateIn g n).display) before n)
      fun index => index.toList = (before ++ [n]).map fun n => (stateIn g n, n) := by
  have hkeys : index.keys = before.map (stateIn g) := by
    rw [OrderedMap.keys, show index.entries = _ from hindex, List.map_map]
    rfl
  unfold addNode repeatFaults
  rw [hread]
  simp only
  by_cases hold : stateIn g n ∈ before.map (stateIn g)
  · have hcontains : index.contains (stateIn g n) = true := by
      rw [OrderedMap.contains_iff_mem_keys, hkeys]
      exact hold
    rw [if_pos hold, if_pos hcontains]
    rfl
  · have hfresh : stateIn g n ∉ index.keys := hkeys ▸ hold
    have hcontains : ¬ index.contains (stateIn g n) = true := by
      rwa [OrderedMap.contains_iff_mem_keys]
    rw [if_neg hold, if_neg hcontains]
    refine settles_ok ?_
    rw [OrderedMap.toList_insert_of_not_mem hfresh, hindex, List.map_append]
    rfl

/-- The index of states lists all nodes with their states, unless a state comes twice. -/
theorem settles_readStates (g : Graph) :
    Settles (readStates g) (refusals (propertyFaults g) ++ repeatedFaults g)
      fun index => index.toList = g.nodes.toList.map fun n => (stateIn g n, n) := by
  unfold readStates propertyFaults
  by_cases hname : Schema.stateName ∈ g.nodeCatalog.names
  · obtain ⟨state, hhandle⟩ := Option.isSome_iff_exists.1 (Catalog.handle?_isSome_iff.2 hname)
    rw [if_pos hname, show g.nodeHandle? Schema.stateName = some state from hhandle]
    simp only
    rw [NodeSpan.foldlM_eq_foldlM_toList]
    refine settles_foldlM (fun before (index : OrderedMap Value NodeId) =>
      index.toList = before.map fun n => (stateIn g n, n)) g.nodes.toList ?_ rfl
    intro before n after index hsplit hindex
    have hn : g.hasNode n = true := by
      refine (Adjacency.mem_nodes_toList_iff g.adjacency n).1 ?_
      rw [show g.adjacency.nodes.toList = _ from hsplit]
      simp
    have hread : g.nodeValue state n = .ok (stateIn g n) :=
      (Catalog.read_of_handle hhandle _ n).trans (nodeValueByName_stateName hname hn)
    exact settles_addNode hread hindex
  · have hnone : g.nodeHandle? Schema.stateName = none := Catalog.handle?_eq_none_iff.2 hname
    rw [if_neg hname, hnone]
    rfl

/-! ## Reopening -/

/-- A graph is reopened if its metadata is in order and no state comes twice; otherwise the
first fault is reported. -/
theorem settles_ofGraph (g : Graph) :
    Settles (ofGraph g) (refusals (metadataFaults g) ++ repeatedFaults g)
      fun t => t.graph = g ∧ t.states.toList = g.nodes.toList.map fun n => (stateIn g n, n) := by
  have hfaults : refusals (metadataFaults g) ++ repeatedFaults g =
      refusals (kindFaults g) ++ (refusals (missingFaults g turnBasedName Value.asBool?) ++
        (refusals (missingFaults g actionsName Value.asList?) ++ (refusals (atomsFaults g) ++
          ((refusals (propertyFaults g) ++ repeatedFaults g) ++ [])))) := by
    simp only [refusals, metadataFaults, List.map_append, List.append_assoc, List.append_nil]
  rw [hfaults]
  refine (settles_readBranching g).bind fun branching _ => ?_
  refine (settles_readTurnBased g).bind fun turnBased _ => ?_
  refine (settles_readActions g).bind fun actions _ => ?_
  refine (settles_readAtoms g).bind fun atoms _ => ?_
  refine (settles_readStates g).bind fun states hstates => ?_
  exact settles_ok ⟨rfl, hstates⟩

theorem exists_ofGraph_eq_ok_iff (g : Graph) :
    (∃ t, ofGraph g = .ok t) ↔ Metadata g ∧ DistinctStates g := by
  have hsettles := settles_ofGraph g
  rw [← metadataFaults_eq_nil_iff, ← repeatedFaults_eq_nil_iff]
  constructor
  · rintro ⟨t, ht⟩
    obtain ⟨hnone, -⟩ := hsettles.faults_eq_nil ht
    obtain ⟨hmetadata, hrepeated⟩ := List.append_eq_nil_iff.1 hnone
    exact ⟨List.map_eq_nil_iff.1 hmetadata, hrepeated⟩
  · rintro ⟨hmetadata, hrepeated⟩
    rw [hmetadata, hrepeated] at hsettles
    obtain ⟨t, ht, -⟩ := hsettles.eq_ok
    exact ⟨t, ht⟩

/-- Without its metadata a graph is refused for the first thing that is missing. -/
theorem ofGraph_of_not_metadata {g : Graph} (hmissing : ¬ Metadata g) :
    ∃ fault, (metadataFaults g).head? = some fault ∧
      ofGraph g = .error (.missingMetadata fault) := by
  rw [← metadataFaults_eq_nil_iff] at hmissing
  obtain ⟨fault, faults, hfaults⟩ := List.exists_cons_of_ne_nil hmissing
  refine ⟨fault, by rw [hfaults]; rfl, ((settles_ofGraph g).eq_error_iff _).2 ?_⟩
  rw [hfaults]
  rfl

/-- With its metadata a graph is refused for the first state that comes again. -/
theorem ofGraph_of_not_distinctStates {g : Graph} (hmetadata : Metadata g)
    (hrepeated : ¬ DistinctStates g) : ∃ before n after,
      g.nodes.toList = before ++ n :: after ∧ (before.map (stateIn g)).Nodup ∧
        stateIn g n ∈ before.map (stateIn g) ∧
        ofGraph g = .error (.duplicateState (stateIn g n).display) := by
  rw [← metadataFaults_eq_nil_iff] at hmetadata
  rw [← repeatedFaults_eq_nil_iff] at hrepeated
  obtain ⟨e, faults, hfaults⟩ := List.exists_cons_of_ne_nil hrepeated
  have hhead : (repeatedFaults g).head? = some e := by rw [hfaults]; rfl
  obtain ⟨before, n, after, hsplit, hnew, hold, rfl⟩ := exists_of_head?_repeatedFaults hhead
  refine ⟨before, n, after, hsplit, hnew, hold, ((settles_ofGraph g).eq_error_iff _).2 ?_⟩
  rw [hmetadata]
  exact hhead

/-- No request to the graph is refused. -/
theorem ofGraph_ne_graph (g : Graph) (e : GraphError) : ofGraph g ≠ .error (.graph e) := by
  intro he
  by_cases hmetadata : Metadata g
  · by_cases hdistinct : DistinctStates g
    · obtain ⟨t, ht⟩ := (exists_ofGraph_eq_ok_iff g).2 ⟨hmetadata, hdistinct⟩
      rw [ht] at he
      cases he
    · obtain ⟨_, n, _, -, -, -, hrepeated⟩ := ofGraph_of_not_distinctStates hmetadata hdistinct
      rw [hrepeated] at he
      cases he
  · obtain ⟨fault, -, hmissing⟩ := ofGraph_of_not_metadata hmetadata
    rw [hmissing] at he
    cases he

end StateGraph.TransitionSystem
