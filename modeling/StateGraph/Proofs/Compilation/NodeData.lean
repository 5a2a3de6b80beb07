import StateGraph.Proofs.Compilation.Reopening
import StateGraph.Proofs.EdgeViews

set_option autoImplicit false

/-!
# What the nodes of a compiled graph hold

The node of a state holds the value of the state, the turn if states belong to players, the
label if there are propositions, and the further properties that the generator declares.
Each of them reads what the generator says of the state, or else a default
(`Generator.NodesHold`).

All of this follows from one statement about explicit values (`Compiled.explicit?_eq`): a
label comes from the last step of a compilation, everything else from the step that adds the
state, and a name that is not reserved is never written by another step.
-/

namespace StateGraph

namespace Schema

/-- The reserved names come first, then the further ones. -/
theorem keys_nodeProperties {further : Attributes}
    (hfree : ∀ name ∈ further.keys, isReserved name = false) (turnBased : Bool)
    (atoms : Option LabelSet) :
    (nodeProperties turnBased atoms further).keys =
      (reservedNode turnBased atoms).map Prod.fst ++ further.keys :=
  (congrArg (List.map Prod.fst) (toList_nodeProperties hfree turnBased atoms)).trans List.map_append

/-- A further node property has the default it was declared with. -/
theorem get?_nodeProperties_of_some {further : Attributes} {name : String} {default : Value}
    (hget : further.get? name = some default) (turnBased : Bool) (atoms : Option LabelSet) :
    (nodeProperties turnBased atoms further).get? name = some default := by
  rw [get?_nodeProperties, hget]
  rfl

/-- A reserved node property has its own default. -/
theorem get?_nodeProperties_of_reserved {further : Attributes}
    (hfree : ∀ name ∈ further.keys, isReserved name = false) {name : String}
    (hname : isReserved name = true) (turnBased : Bool) (atoms : Option LabelSet) :
    (nodeProperties turnBased atoms further).get? name =
      AssocList.lookup name (reservedNode turnBased atoms) := by
  rw [get?_nodeProperties, get?_eq_none_of_reserved hfree hname, Option.none_or]

end Schema

namespace Generator

variable {σ α : Type} {gen : Generator σ α}

/-- There are propositions if states are labelled from a set that is not empty. -/
theorem hasAtoms_iff : Schema.hasAtoms gen.atoms = true ↔
    ∃ labeling, gen.labeling = some labeling ∧ labeling.atoms.isEmpty = false := by
  rw [Schema.hasAtoms, atoms]
  cases gen.labeling <;> simp

section Values

variable [ToValue σ]

theorem lookup_turnName (gen : Generator σ α) (s : σ) :
    AssocList.lookup Schema.turnName (gen.stateValues s) = (gen.turn s).map Value.int := by
  have hfurther : AssocList.lookup Schema.turnName ((gen.stateAttributes s).toList.filter
      fun x => gen.schema.isFurtherNode x.1) = none := AssocList.lookup_filter _ _ _
  rw [stateValues, AssocList.lookup_append, hfurther, Option.or_none]
  cases gen.turn s <;> rfl

/-- A further property has the value that the state gives it. -/
theorem lookup_furtherNode {name : String} (hname : gen.schema.isFurtherNode name = true) (s : σ) :
    AssocList.lookup name (gen.stateValues s) = (gen.stateAttributes s).get? name :=
  Schema.lookup_append_further (isReserved_of_mem_state s (gen.turn s))
    (fun _ => Schema.isReserved_of_isFurtherNode) _ hname

variable [DecidableEq σ] [ToValue α] {owner : Identity} {t : TransitionSystem σ α}

omit [ToValue σ] [ToValue α] [DecidableEq σ] in
/-- The label of a state is written on its node. -/
theorem lookup_labelEntries (hfew : gen.states.length < 2 ^ 32) {labeling : Labeling σ}
    (hlabeling : gen.labeling = some labeling) {e : σ × NodeId} (he : e ∈ numbered gen.states) :
    (AssocList.lookup e.2 gen.labelEntries).bind (AssocList.lookup Schema.labelName) =
      some (.labels (labeling.label e.1)) := by
  have hentry : labelEntry labeling e ∈ gen.labelEntries := by
    rw [labelEntries, hlabeling]
    exact List.mem_map_of_mem he
  have hlookup : AssocList.lookup e.2 gen.labelEntries = some (labelEntry labeling e).2 :=
    (AssocList.lookup_eq_some_iff (nodup_map_fst_labelEntries hfew) _ _).2 hentry
  rw [hlookup]
  rfl

/-- A declared property reads its explicit value or its default. -/
theorem Compiled.nodeValue (hcompiled : gen.Compiled owner t) (hfew : gen.states.length < 2 ^ 32)
    {e : σ × NodeId} (he : e ∈ numbered gen.states) {name : String} {default : Value}
    (hdefault : gen.schema.node.get? name = some default) :
    t.graph.nodeValueByName name e.2 =
      .ok ((((AssocList.lookup e.2 gen.labelEntries).bind (AssocList.lookup name)).or
        (AssocList.lookup name (gen.stateValues e.1))).getD default) := by
  have hdeclared : t.graph.nodeCatalog.default? name = some default := by
    rw [hcompiled.nodeCatalog, Catalog.default?_putAll, Catalog.default?_putAll,
      Catalog.default?_declared, hdefault]
  have hname : name ∈ gen.schema.node.keys := by
    rw [← OrderedMap.get?_isSome_iff, hdefault]
    rfl
  have hexists : t.graph.hasNode e.2 = true := by
    have hnode : e.2 ∈ t.graph.nodes.toList := by
      rw [hcompiled.toList_nodes hfew]
      exact List.mem_map_of_mem he
    exact (Adjacency.mem_nodes_toList_iff _ _).1 hnode
  rw [Graph.nodeValueByName, Catalog.readByName_of_default hdeclared hexists,
    hcompiled.explicit?_eq hfew he hname]

/-- Under a name that is not that of labels, the state alone counts. -/
theorem Compiled.nodeValue_of_ne (hcompiled : gen.Compiled owner t)
    (hfew : gen.states.length < 2 ^ 32) {e : σ × NodeId} (he : e ∈ numbered gen.states)
    {name : String} (hne : name ≠ Schema.labelName) {default : Value}
    (hdefault : gen.schema.node.get? name = some default) :
    t.graph.nodeValueByName name e.2 =
      .ok ((AssocList.lookup name (gen.stateValues e.1)).getD default) := by
  rw [hcompiled.nodeValue hfew he hdefault, lookup_labelEntries_of_ne hfew hne, Option.none_or]

end Values

variable [DecidableEq σ] [ToValue σ] [ToValue α]

/-- What the nodes of a compiled graph hold. -/
structure NodesHold (gen : Generator σ α) (t : TransitionSystem σ α) : Prop where
  /-- the states have nodes, and nothing else has -/
  placed : ∀ s, (t.nodeOf? s).isSome = true ↔ s ∈ gen.states
  /-- the declared properties, and no others -/
  names : t.graph.nodeCatalog.names = [Schema.stateName] ++
    (if gen.turnBased then [Schema.turnName] else []) ++
    (if Schema.hasAtoms gen.atoms then [Schema.labelName] else []) ++ gen.stateProperties.keys
  turnDeclared : Schema.turnName ∈ t.graph.nodeCatalog.names ↔ gen.turnBased = true
  labelDeclared : Schema.labelName ∈ t.graph.nodeCatalog.names ↔
    ∃ labeling, gen.labeling = some labeling ∧ labeling.atoms.isEmpty = false
  state : ∀ s n, t.nodeOf? s = some n →
    t.graph.nodeValueByName Schema.stateName n = .ok (toValue s)
  turn : gen.turnBased = true → ∀ s n, t.nodeOf? s = some n →
    t.graph.nodeValueByName Schema.turnName n = .ok (.int ((gen.turn s).getD (-1)))
  label : ∀ labeling, gen.labeling = some labeling → labeling.atoms.isEmpty = false →
    ∀ s n, t.nodeOf? s = some n →
      t.graph.nodeValueByName Schema.labelName n = .ok (.labels (labeling.label s))
  further : ∀ name default, gen.stateProperties.get? name = some default →
    ∀ s n, t.nodeOf? s = some n →
      t.graph.nodeValueByName name n = .ok (((gen.stateAttributes s).get? name).getD default)

/-- The nodes of an acceptable generator hold what it says of its states. -/
theorem Compiled.nodesHold {options : CompileOptions} {owner : Identity} {t : TransitionSystem σ α}
    (hcompiled : gen.Compiled owner t) (hfew : gen.states.length < 2 ^ 32)
    (hacceptable : gen.Acceptable options) : gen.NodesHold t := by
  have hfree := hacceptable.stateNames
  have hnames : t.graph.nodeCatalog.names =
      (Schema.reservedNode gen.turnBased gen.atoms).map Prod.fst ++ gen.stateProperties.keys := by
    rw [hcompiled.names_nodeCatalog]
    exact Schema.keys_nodeProperties hfree gen.turnBased gen.atoms
  have hreserved : ∀ name, Schema.isReserved name = true → gen.schema.node.get? name =
      AssocList.lookup name (Schema.reservedNode gen.turnBased gen.atoms) := fun name hname =>
    Schema.get?_nodeProperties_of_reserved hfree hname gen.turnBased gen.atoms
  have hnumbered : ∀ s n, t.nodeOf? s = some n → (s, n) ∈ numbered gen.states := by
    intro s n hn
    rw [← hcompiled.states]
    exact (OrderedMap.get?_eq_some_iff _ _ _).1 hn
  constructor
  case placed =>
    intro s
    rw [TransitionSystem.nodeOf?, OrderedMap.get?_isSome_iff, keys_eq_of_numbered hcompiled.states]
  case names =>
    rw [hnames, Schema.reservedNode]
    cases gen.turnBased <;> cases Schema.hasAtoms gen.atoms <;> rfl
  case turnDeclared =>
    rw [hcompiled.names_nodeCatalog]
    exact Schema.turnName_mem_iff hfree gen.turnBased gen.atoms
  case labelDeclared =>
    rw [hcompiled.names_nodeCatalog, ← hasAtoms_iff]
    exact Schema.labelName_mem_iff hfree gen.turnBased gen.atoms
  case state =>
    intro s n hn
    exact hcompiled.stateValue hfew (hnumbered s n hn)
  case turn =>
    intro hturn s n hn
    have hdefault : gen.schema.node.get? Schema.turnName = some (.int (-1)) := by
      rw [hreserved _ (by decide), hturn]
      cases Schema.hasAtoms gen.atoms <;> rfl
    rw [hcompiled.nodeValue_of_ne hfew (hnumbered s n hn) (by decide) hdefault, lookup_turnName]
    cases gen.turn s <;> rfl
  case label =>
    intro labeling hlabeling hsome s n hn
    have hatoms : Schema.hasAtoms gen.atoms = true := hasAtoms_iff.2 ⟨labeling, hlabeling, hsome⟩
    have hdefault : gen.schema.node.get? Schema.labelName = some (.labels .empty) := by
      rw [hreserved _ (by decide), Schema.reservedNode, hatoms]
      cases gen.turnBased <;> rfl
    rw [hcompiled.nodeValue hfew (hnumbered s n hn) hdefault,
      lookup_labelEntries hfew hlabeling (hnumbered s n hn)]
    rfl
  case further =>
    intro name default hget s n hn
    have hmem : name ∈ gen.stateProperties.keys := by
      rw [← OrderedMap.get?_isSome_iff, hget]
      rfl
    have hdefault : gen.schema.node.get? name = some default :=
      Schema.get?_nodeProperties_of_some hget gen.turnBased gen.atoms
    have hwanted : gen.schema.isFurtherNode name = true := by
      rw [Schema.isFurtherNode, hfree name hmem, OrderedMap.contains, hdefault]
      rfl
    have hne : name ≠ Schema.labelName := by
      rintro rfl
      have htaken := hfree _ hmem
      revert htaken
      decide
    rw [hcompiled.nodeValue_of_ne hfew (hnumbered s n hn) hne hdefault, lookup_furtherNode hwanted]

end Generator

end StateGraph
