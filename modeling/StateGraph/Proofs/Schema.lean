import StateGraph.Proofs.Catalogs
import StateGraph.Transition.Schema

set_option autoImplicit false

/-!
# What a schema declares

A schema has the reserved properties first and the further ones after them, and no
further property has a reserved name.  So a reserved name always means the reserved
property, and a further name keeps the default it was declared with.

`Schema.Installed` says that a graph has the properties of a schema and that the
handles are those of the reserved ones.  It only depends on the names, so writing
values keeps it (`Schema.Installed.congr`).
-/

namespace StateGraph.Schema

/-! ## Names that are taken -/

/-- What is wrong with the names of further properties. -/
def nameFaults (scope : Scope) (declared : Attributes) : List CompileError :=
  match declared.keys.filter isReserved with
  | [] => []
  | names => [.nameConflict scope names]

/-- There is nothing wrong with names none of which is reserved. -/
theorem nameFaults_eq_nil_iff (scope : Scope) (declared : Attributes) :
    nameFaults scope declared = [] ↔ ∀ name ∈ declared.keys, isReserved name = false := by
  have hfilter : nameFaults scope declared = [] ↔ declared.keys.filter isReserved = [] := by
    unfold nameFaults
    cases declared.keys.filter isReserved <;> simp
  rw [hfilter, List.filter_eq_nil_iff]
  simp

theorem settles_rejectReserved (scope : Scope) (declared : Attributes) :
    Settles (rejectReserved scope declared) (nameFaults scope declared)
      fun _ => ∀ name ∈ declared.keys, isReserved name = false := by
  have hfree := (nameFaults_eq_nil_iff scope declared).1
  revert hfree
  unfold rejectReserved nameFaults
  cases declared.keys.filter isReserved with
  | nil => exact fun hfree => ⟨(), rfl, hfree rfl⟩
  | cons name names => exact fun _ => rfl

/-- The names of further properties are looked at scope by scope. -/
theorem settles_plan (branching : Branching) (turnBased : Bool) (atoms : Option LabelSet)
    (stateProperties transitionProperties : Attributes) :
    Settles (plan branching turnBased atoms stateProperties transitionProperties)
      (nameFaults .state stateProperties ++ nameFaults .transition transitionProperties)
      fun s => s = ⟨nodeProperties turnBased atoms stateProperties,
          edgeProperties branching transitionProperties⟩ ∧
        ∀ name ∈ stateProperties.keys, isReserved name = false := by
  refine (settles_rejectReserved .state stateProperties).bind fun _ hfree => ?_
  rw [← List.append_nil (nameFaults .transition transitionProperties)]
  exact (settles_rejectReserved .transition transitionProperties).bind fun _ _ =>
    settles_ok ⟨rfl, hfree⟩

/-! ## Reserved and further properties -/

/-- Whether there are propositions. -/
def hasAtoms (atoms : Option LabelSet) : Bool := atoms.any fun set => !set.isEmpty

/-- The reserved node properties that a schema has. -/
def reservedNode (turnBased : Bool) (atoms : Option LabelSet) : List (String × Value) :=
  [(stateName, .null)] ++ (if turnBased then [(turnName, .int (-1))] else []) ++
    (if hasAtoms atoms then [(labelName, .labels .empty)] else [])

/-- The reserved edge properties that a schema has. -/
def reservedEdge (branching : Branching) : List (String × Value) :=
  [(actionName, .null)] ++ (if branching.isWeighted then [(probName, .int (-1))] else [])

theorem nodup_reservedNode (turnBased : Bool) (atoms : Option LabelSet) :
    ((reservedNode turnBased atoms).map Prod.fst).Nodup := by
  unfold reservedNode
  cases turnBased <;> cases hasAtoms atoms <;> decide

theorem nodup_reservedEdge (branching : Branching) :
    ((reservedEdge branching).map Prod.fst).Nodup := by
  cases branching <;> decide

/-- The names of reserved node properties are reserved. -/
theorem isReserved_of_mem_reservedNode {turnBased : Bool} {atoms : Option LabelSet} {name : String}
    (hname : name ∈ (reservedNode turnBased atoms).map Prod.fst) : isReserved name = true := by
  have hall : ∀ name ∈ (reservedNode turnBased atoms).map Prod.fst, isReserved name = true := by
    unfold reservedNode
    cases turnBased <;> cases hasAtoms atoms <;> decide
  exact hall name hname

/-- The names of reserved edge properties are reserved. -/
theorem isReserved_of_mem_reservedEdge {branching : Branching} {name : String}
    (hname : name ∈ (reservedEdge branching).map Prod.fst) : isReserved name = true := by
  have hall : ∀ name ∈ (reservedEdge branching).map Prod.fst, isReserved name = true := by
    cases branching <;> decide
  exact hall name hname

/-- The further properties, written after distinct reserved ones, are all there with
their defaults. -/
theorem get?_insertMany_further {reserved : List (String × Value)}
    (hreserved : (reserved.map Prod.fst).Nodup) (further : Attributes) (name : String) :
    ((OrderedMap.ofList reserved).insertMany further.toList).get? name =
      (further.get? name).or (AssocList.lookup name reserved) := by
  have hfurther : (further.toList.map Prod.fst).Nodup := further.distinct
  rw [OrderedMap.get?_insertMany _ hfurther, OrderedMap.ofList,
    OrderedMap.get?_insertMany _ hreserved, OrderedMap.get?_empty, Option.or_none]
  rfl

/-- The further properties come after the reserved ones, if none of them has a reserved name. -/
theorem toList_insertMany_further {reserved : List (String × Value)}
    (hreserved : (reserved.map Prod.fst).Nodup)
    (hall : ∀ name ∈ reserved.map Prod.fst, isReserved name = true) {further : Attributes}
    (hfree : ∀ name ∈ further.keys, isReserved name = false) :
    ((OrderedMap.ofList reserved).insertMany further.toList).toList =
      reserved ++ further.toList := by
  have hlist : (OrderedMap.ofList reserved).toList = reserved := OrderedMap.toList_ofList hreserved
  have hkeys : (OrderedMap.ofList reserved).keys = reserved.map Prod.fst :=
    congrArg (List.map Prod.fst) hlist
  have hdisjoint : ((OrderedMap.ofList reserved).keys ++ further.toList.map Prod.fst).Nodup := by
    rw [hkeys, List.nodup_append]
    refine ⟨hreserved, further.distinct, ?_⟩
    rintro name hname _ hother rfl
    have htaken := hall name hname
    rw [hfree name hother] at htaken
    cases htaken
  rw [OrderedMap.toList_insertMany_of_disjoint _ _ hdisjoint, hlist]

theorem toList_nodeProperties {further : Attributes}
    (hfree : ∀ name ∈ further.keys, isReserved name = false) (turnBased : Bool)
    (atoms : Option LabelSet) :
    (nodeProperties turnBased atoms further).toList =
      reservedNode turnBased atoms ++ further.toList :=
  toList_insertMany_further (nodup_reservedNode turnBased atoms)
    (fun _ => isReserved_of_mem_reservedNode) hfree

theorem toList_edgeProperties {further : Attributes}
    (hfree : ∀ name ∈ further.keys, isReserved name = false) (branching : Branching) :
    (edgeProperties branching further).toList = reservedEdge branching ++ further.toList :=
  toList_insertMany_further (nodup_reservedEdge branching)
    (fun _ => isReserved_of_mem_reservedEdge) hfree

theorem get?_nodeProperties (turnBased : Bool) (atoms : Option LabelSet) (further : Attributes)
    (name : String) :
    (nodeProperties turnBased atoms further).get? name =
      (further.get? name).or (AssocList.lookup name (reservedNode turnBased atoms)) :=
  get?_insertMany_further (nodup_reservedNode turnBased atoms) further name

theorem get?_edgeProperties (branching : Branching) (further : Attributes) (name : String) :
    (edgeProperties branching further).get? name =
      (further.get? name).or (AssocList.lookup name (reservedEdge branching)) :=
  get?_insertMany_further (nodup_reservedEdge branching) further name

/-- A name that is declared and not reserved is that of a further property. -/
theorem mem_keys_of_isFurther {reserved : List (String × Value)}
    (hreserved : (reserved.map Prod.fst).Nodup)
    (hall : ∀ name ∈ reserved.map Prod.fst, isReserved name = true) {further : Attributes}
    {name : String} (hfree : isReserved name = false)
    (hdeclared : ((OrderedMap.ofList reserved).insertMany further.toList).contains name = true) :
    name ∈ further.keys := by
  have hother : AssocList.lookup name reserved = none := by
    rw [AssocList.lookup_eq_none_iff]
    intro hmem
    rw [hall name hmem] at hfree
    cases hfree
  rw [OrderedMap.contains, get?_insertMany_further hreserved, hother, Option.or_none] at hdeclared
  exact (OrderedMap.get?_isSome_iff _ _).1 hdeclared

theorem get?_eq_none_of_reserved {further : Attributes}
    (hfree : ∀ name ∈ further.keys, isReserved name = false) {name : String}
    (hname : isReserved name = true) : further.get? name = none := by
  rw [OrderedMap.get?_eq_none_iff]
  intro hmem
  rw [hfree name hmem] at hname
  cases hname

theorem stateName_mem (turnBased : Bool) (atoms : Option LabelSet) (further : Attributes) :
    stateName ∈ (nodeProperties turnBased atoms further).keys := by
  rw [← OrderedMap.get?_isSome_iff, get?_nodeProperties]
  cases further.get? stateName <;> rfl

theorem actionName_mem (branching : Branching) (further : Attributes) :
    actionName ∈ (edgeProperties branching further).keys := by
  rw [← OrderedMap.get?_isSome_iff, get?_edgeProperties]
  cases further.get? actionName <;> rfl

/-- There are turns if states belong to players. -/
theorem turnName_mem_iff {further : Attributes}
    (hfree : ∀ name ∈ further.keys, isReserved name = false) (turnBased : Bool)
    (atoms : Option LabelSet) :
    turnName ∈ (nodeProperties turnBased atoms further).keys ↔ turnBased = true := by
  have hnone : further.get? turnName = none := get?_eq_none_of_reserved hfree (by decide)
  rw [← OrderedMap.get?_isSome_iff, get?_nodeProperties, hnone, reservedNode]
  cases turnBased <;> cases hasAtoms atoms <;> decide

/-- There are labels if there are propositions. -/
theorem labelName_mem_iff {further : Attributes}
    (hfree : ∀ name ∈ further.keys, isReserved name = false) (turnBased : Bool)
    (atoms : Option LabelSet) :
    labelName ∈ (nodeProperties turnBased atoms further).keys ↔
      hasAtoms atoms = true := by
  have hnone : further.get? labelName = none := get?_eq_none_of_reserved hfree (by decide)
  rw [← OrderedMap.get?_isSome_iff, get?_nodeProperties, hnone, reservedNode]
  cases turnBased <;> cases hasAtoms atoms <;> decide

/-- There are probabilities if there are distributions. -/
theorem probName_mem_iff {further : Attributes}
    (hfree : ∀ name ∈ further.keys, isReserved name = false) (branching : Branching) :
    probName ∈ (edgeProperties branching further).keys ↔ branching.isWeighted = true := by
  have hnone : further.get? probName = none := get?_eq_none_of_reserved hfree (by decide)
  rw [← OrderedMap.get?_isSome_iff, get?_edgeProperties, hnone]
  cases branching <;> decide

/-- A further edge property has the default it was declared with. -/
theorem get?_edgeProperties_of_some {further : Attributes} {name : String} {default : Value}
    (hget : further.get? name = some default) (branching : Branching) :
    (edgeProperties branching further).get? name = some default := by
  rw [get?_edgeProperties, hget]
  rfl

/-! ## Values under reserved and further names -/

theorem isReserved_of_isFurtherNode {s : Schema} {name : String}
    (hname : s.isFurtherNode name = true) : isReserved name = false := by
  rw [isFurtherNode, Bool.and_eq_true, Bool.not_eq_true'] at hname
  exact hname.1

theorem isReserved_of_isFurtherEdge {s : Schema} {name : String}
    (hname : s.isFurtherEdge name = true) : isReserved name = false := by
  rw [isFurtherEdge, Bool.and_eq_true, Bool.not_eq_true'] at hname
  exact hname.1

section Values

variable {reserved : List (String × Value)} {wanted : String → Bool}
  (hreserved : ∀ name ∈ reserved.map Prod.fst, isReserved name = true)
  (hwanted : ∀ name, wanted name = true → isReserved name = false)

include hreserved hwanted

/-- Further values have other names than the reserved ones before them. -/
theorem nodup_append_further (hnodup : (reserved.map Prod.fst).Nodup) (further : Attributes) :
    ((reserved ++ further.toList.filter fun x => wanted x.1).map Prod.fst).Nodup := by
  have hfurther : ((further.toList.filter fun x => wanted x.1).map Prod.fst).Nodup :=
    further.distinct.sublist (List.filter_sublist.map Prod.fst)
  rw [List.map_append, List.nodup_append]
  refine ⟨hnodup, hfurther, ?_⟩
  rintro name hname _ hother rfl
  obtain ⟨x, hx, rfl⟩ := List.mem_map.1 hother
  have hfree := hwanted x.1 (List.mem_filter.1 hx).2
  rw [hreserved x.1 hname] at hfree
  cases hfree

/-- Under a further name the further values count. -/
theorem lookup_append_further (further : Attributes) {name : String} (hname : wanted name = true) :
    AssocList.lookup name (reserved ++ further.toList.filter fun x => wanted x.1) =
      further.get? name := by
  have hnone : AssocList.lookup name reserved = none := by
    rw [AssocList.lookup_eq_none_iff]
    intro hmem
    have hfree := hwanted name hname
    rw [hreserved name hmem] at hfree
    cases hfree
  rw [AssocList.lookup_append, hnone, Option.none_or, AssocList.lookup_filter, if_pos hname]
  rfl

end Values

/-! ## Graphs with the properties of a schema -/

/-- The graph without nodes that has the properties of a schema. -/
def blank (s : Schema) (owner : Identity) : Graph :=
  ⟨.isolated 0, .declared owner s.node, .declared owner s.edge, .empty⟩

/-- The handles are those of the reserved properties that a graph has. -/
structure Handed (handles : SchemaHandles) (g : Graph) : Prop where
  state : g.nodeCatalog.handle? stateName = some handles.state
  turn : g.nodeCatalog.handle? turnName = handles.turn
  label : g.nodeCatalog.handle? labelName = handles.label
  action : g.edgeCatalog.handle? actionName = some handles.action
  prob : g.edgeCatalog.handle? probName = handles.prob

/-- A graph has the properties of a schema, and the handles belong to the reserved
ones. -/
structure Installed (s : Schema) (handles : SchemaHandles) (g : Graph) : Prop
    extends Handed handles g where
  nodeNames : g.nodeCatalog.names = s.node.keys
  edgeNames : g.edgeCatalog.names = s.edge.keys

/-- Only identities and names matter. -/
theorem Installed.congr {s : Schema} {handles : SchemaHandles} {g g' : Graph}
    (hinstalled : s.Installed handles g) (hnodeOwner : g'.nodeCatalog.owner = g.nodeCatalog.owner)
    (hnodeNames : g'.nodeCatalog.names = g.nodeCatalog.names)
    (hedgeOwner : g'.edgeCatalog.owner = g.edgeCatalog.owner)
    (hedgeNames : g'.edgeCatalog.names = g.edgeCatalog.names) : s.Installed handles g' where
  state := (Catalog.handle?_congr hnodeOwner hnodeNames _).trans hinstalled.state
  turn := (Catalog.handle?_congr hnodeOwner hnodeNames _).trans hinstalled.turn
  label := (Catalog.handle?_congr hnodeOwner hnodeNames _).trans hinstalled.label
  action := (Catalog.handle?_congr hedgeOwner hedgeNames _).trans hinstalled.action
  prob := (Catalog.handle?_congr hedgeOwner hedgeNames _).trans hinstalled.prob
  nodeNames := hnodeNames.trans hinstalled.nodeNames
  edgeNames := hedgeNames.trans hinstalled.edgeNames

/-- All properties are declared, catalog by catalog. -/
theorem declareAll_eq (s : Schema) (g : Graph) :
    s.declareAll g = ⟨g.adjacency, g.nodeCatalog.declareEach s.node.toList,
      g.edgeCatalog.declareEach s.edge.toList, g.attributes⟩ := by
  have hnodes : ∀ (l : List (String × Value)) (g : Graph),
      l.foldl (fun g d => (g.declareNodeProperty d.1 d.2).1) g =
        { g with nodeCatalog := g.nodeCatalog.declareEach l } := by
    intro l
    induction l with
    | nil => exact fun _ => rfl
    | cons d l ih => exact fun g => ih (g.declareNodeProperty d.1 d.2).1
  have hedges : ∀ (l : List (String × Value)) (g : Graph),
      l.foldl (fun g d => (g.declareEdgeProperty d.1 d.2).1) g =
        { g with edgeCatalog := g.edgeCatalog.declareEach l } := by
    intro l
    induction l with
    | nil => exact fun _ => rfl
    | cons d l ih => exact fun g => ih (g.declareEdgeProperty d.1 d.2).1
  have hall : s.declareAll g =
      s.edge.toList.foldl (fun g d => (g.declareEdgeProperty d.1 d.2).1)
        (s.node.toList.foldl (fun g d => (g.declareNodeProperty d.1 d.2).1) g) := rfl
  rw [hall, hedges, hnodes]

theorem declareAll_empty (s : Schema) (owner : Identity) :
    s.declareAll (.empty owner) = s.blank owner := by
  rw [declareAll_eq]
  simp only [Graph.empty, Catalog.declareEach_empty]
  rfl

/-- To apply a schema is to declare all of it: nothing is declared for the sake of a handle. -/
theorem apply_eq_declareAll {s : Schema} {g : Graph}
    (hstate : stateName ∈ (s.declareAll g).nodeCatalog.names)
    (haction : actionName ∈ (s.declareAll g).edgeCatalog.names) :
    ∃ handles, s.apply g = (s.declareAll g, handles) ∧ Handed handles (s.declareAll g) := by
  obtain ⟨state, hstate⟩ := Option.isSome_iff_exists.1 (Catalog.handle?_isSome_iff.2 hstate)
  obtain ⟨action, haction⟩ := Option.isSome_iff_exists.1 (Catalog.handle?_isSome_iff.2 haction)
  have hnode : (s.declareAll g).declareNodeProperty stateName .null = (s.declareAll g, state) := by
    unfold Graph.declareNodeProperty
    rw [Catalog.declare_of_handle hstate]
  have hedge : (s.declareAll g).declareEdgeProperty actionName .null =
      (s.declareAll g, action) := by
    unfold Graph.declareEdgeProperty
    rw [Catalog.declare_of_handle haction]
  refine ⟨⟨state, (s.declareAll g).nodeHandle? turnName, (s.declareAll g).nodeHandle? labelName,
    action, (s.declareAll g).edgeHandle? probName⟩, ?_, hstate, rfl, rfl, haction, rfl⟩
  unfold apply
  simp only [hnode, hedge]

/-- Applied to the empty graph, a schema is installed. -/
theorem apply_empty {s : Schema} (hstate : stateName ∈ s.node.keys)
    (haction : actionName ∈ s.edge.keys) (owner : Identity) :
    ∃ handles, s.apply (.empty owner) = (s.blank owner, handles) ∧
      s.Installed handles (s.blank owner) := by
  have hnodeNames : (s.blank owner).nodeCatalog.names = s.node.keys := Catalog.names_declared _ _
  have hedgeNames : (s.blank owner).edgeCatalog.names = s.edge.keys := Catalog.names_declared _ _
  have hblank := s.declareAll_empty owner
  obtain ⟨handles, happly, hhanded⟩ := apply_eq_declareAll (hblank ▸ hnodeNames ▸ hstate)
    (hblank ▸ hedgeNames ▸ haction)
  rw [hblank] at happly hhanded
  exact ⟨handles, happly, hhanded, hnodeNames, hedgeNames⟩

end StateGraph.Schema
