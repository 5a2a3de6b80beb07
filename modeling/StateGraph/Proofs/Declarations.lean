import StateGraph.Proofs.Handles
import StateGraph.Proofs.Schema
import StateGraph.Proofs.WellFormed

set_option autoImplicit false

/-!
# What is planned is declared

A plan is refused for the reserved names that a generator asks for, and otherwise lists what was
asked for: the reserved properties, then the further ones (`Schema.Planned`).

Applied to a graph, a plan adds what is not there yet, in order, and touches nothing else
(`Schema.Applied`).  The handles that it gives out belong to the names that they stand for,
whether the property was declared before or just now; they are found by declaring a name again,
which changes nothing because the name is there.
-/

namespace StateGraph

namespace Catalog

variable {ε : Type}

theorem growsInto_declareEach (c : Catalog ε) (defaults : List (String × Value)) :
    c.GrowsInto (c.declareEach defaults) := by
  induction defaults generalizing c with
  | nil => exact .refl c
  | cons d defaults ih =>
    exact (c.growsInto_declare d.1 d.2).trans (ih (c.declare d.1 d.2).1)

variable [Element ε] [DecidableEq ε]

/-- A handle leads to the property that the name leads to, and the property carries the name. -/
structure Resolves (c : Catalog ε) (name : String) (h : Handle ε) : Prop
    extends c.Honours name h where
  named : ∀ p, c.byHandle h = .ok p → p.name = name

omit [Element ε] [DecidableEq ε] in
theorem Within.name_of_get? {exists? : ε → Bool} {c : Catalog ε} (hwithin : c.Within exists?)
    {name : String} {p : Property ε} (hget : c.properties.get? name = some p) : p.name = name :=
  hwithin.filed name p ((OrderedMap.get?_eq_some_iff c.properties name p).1 hget)

theorem Within.resolves {exists? : ε → Bool} {c : Catalog ε} (hwithin : c.Within exists?)
    {name : String} {h : Handle ε} (hhandle : c.handle? name = some h) : c.Resolves name h where
  toHonours := honours_of_handle? hhandle
  named p hp := by
    rw [(honours_of_handle? hhandle).reached] at hp
    exact hwithin.name_of_get? (byName_eq_ok_iff.1 hp)

end Catalog

namespace Schema

/-! ## Plans -/

section Plans

variable (branching : Branching) (turnBased : Bool) (atoms : Option LabelSet)
  (stateProperties transitionProperties : Attributes)

/-- A schema lists what was asked for, and tells the further properties from the reserved ones. -/
structure Planned (s : Schema) : Prop where
  node : s.node.toList = reservedNode turnBased atoms ++ stateProperties.toList
  edge : s.edge.toList = reservedEdge branching ++ transitionProperties.toList
  furtherNode : ∀ name, s.isFurtherNode name = true ↔ name ∈ stateProperties.keys
  furtherEdge : ∀ name, s.isFurtherEdge name = true ↔ name ∈ transitionProperties.keys

/-- A plan is refused for the reserved names of the first scope that has any, and of these for
all of them in order. -/
structure Plans : Prop where
  accepted : (∃ s, plan branching turnBased atoms stateProperties transitionProperties = .ok s) ↔
    (∀ name ∈ stateProperties.keys, isReserved name = false) ∧
      ∀ name ∈ transitionProperties.keys, isReserved name = false
  stateConflict : ∀ name names, stateProperties.keys.filter isReserved = name :: names →
    plan branching turnBased atoms stateProperties transitionProperties =
      .error (.nameConflict .state (name :: names))
  transitionConflict : ∀ name names, stateProperties.keys.filter isReserved = [] →
    transitionProperties.keys.filter isReserved = name :: names →
    plan branching turnBased atoms stateProperties transitionProperties =
      .error (.nameConflict .transition (name :: names))

variable {branching turnBased atoms stateProperties transitionProperties}

theorem nameFaults_of_filter_eq_cons {scope : Scope} {declared : Attributes} {name : String}
    {names : List String} (htaken : declared.keys.filter isReserved = name :: names) :
    nameFaults scope declared = [.nameConflict scope (name :: names)] := by
  rw [nameFaults, htaken]

theorem nameFaults_of_filter_eq_nil {scope : Scope} {declared : Attributes}
    (hfree : declared.keys.filter isReserved = []) : nameFaults scope declared = [] := by
  rw [nameFaults, hfree]

/-- A name that is declared and not reserved is one of the further ones, none of which is
reserved. -/
theorem isFurther_iff {reserved : List (String × Value)} {further planned : Attributes}
    (hplanned : planned.toList = reserved ++ further.toList)
    (hall : ∀ name ∈ reserved.map Prod.fst, isReserved name = true)
    (hfree : ∀ name ∈ further.keys, isReserved name = false) (name : String) :
    (!isReserved name && planned.contains name) = true ↔ name ∈ further.keys := by
  have hkeys : planned.keys = reserved.map Prod.fst ++ further.keys :=
    (congrArg (List.map Prod.fst) hplanned).trans List.map_append
  rw [Bool.and_eq_true, Bool.not_eq_true', OrderedMap.contains_iff_mem_keys, hkeys, List.mem_append]
  constructor
  · rintro ⟨hname, htaken | hfurther⟩
    · rw [hall name htaken] at hname
      cases hname
    · exact hfurther
  · exact fun hfurther => ⟨hfree name hfurther, .inr hfurther⟩

/-- What is planned is made of properties none of which is taken. -/
theorem eq_of_plan_eq_ok {s : Schema}
    (hplan : plan branching turnBased atoms stateProperties transitionProperties = .ok s) :
    s = ⟨nodeProperties turnBased atoms stateProperties,
        edgeProperties branching transitionProperties⟩ ∧
      (∀ name ∈ stateProperties.keys, isReserved name = false) ∧
      ∀ name ∈ transitionProperties.keys, isReserved name = false := by
  obtain ⟨hnone, heq, -⟩ := (settles_plan branching turnBased atoms stateProperties
    transitionProperties).faults_eq_nil hplan
  obtain ⟨hstate, htransition⟩ := List.append_eq_nil_iff.1 hnone
  exact ⟨heq, (nameFaults_eq_nil_iff .state stateProperties).1 hstate,
    (nameFaults_eq_nil_iff .transition transitionProperties).1 htransition⟩

/-- What is planned is what was asked for. -/
theorem planned_of_plan_eq_ok {s : Schema}
    (hplan : plan branching turnBased atoms stateProperties transitionProperties = .ok s) :
    Planned branching turnBased atoms stateProperties transitionProperties s := by
  obtain ⟨rfl, hnodeFree, hedgeFree⟩ := eq_of_plan_eq_ok hplan
  have hnode := toList_nodeProperties hnodeFree turnBased atoms
  have hedge := toList_edgeProperties hedgeFree branching
  exact {
    node := hnode
    edge := hedge
    furtherNode := isFurther_iff hnode (fun _ => isReserved_of_mem_reservedNode) hnodeFree
    furtherEdge := isFurther_iff hedge (fun _ => isReserved_of_mem_reservedEdge) hedgeFree }

variable (branching turnBased atoms stateProperties transitionProperties)

theorem plans : Plans branching turnBased atoms stateProperties transitionProperties := by
  have hsettles := settles_plan branching turnBased atoms stateProperties transitionProperties
  constructor
  case accepted =>
    constructor
    · rintro ⟨s, hplan⟩
      exact (eq_of_plan_eq_ok hplan).2
    · rintro ⟨hstate, htransition⟩
      rw [(nameFaults_eq_nil_iff _ _).2 hstate, (nameFaults_eq_nil_iff _ _).2 htransition]
        at hsettles
      obtain ⟨s, hplan, -⟩ := hsettles.eq_ok
      exact ⟨s, hplan⟩
  case stateConflict =>
    intro name names htaken
    rw [nameFaults_of_filter_eq_cons htaken] at hsettles
    exact hsettles
  case transitionConflict =>
    intro name names hfree htaken
    rw [nameFaults_of_filter_eq_nil hfree, nameFaults_of_filter_eq_cons htaken] at hsettles
    exact hsettles

end Plans

/-! ## Applied plans -/

/-- The properties that are not declared yet follow those that are, which stay as they are. -/
def extended {ε : Type} (c : Catalog ε) (planned : Attributes) : List (String × Property ε) :=
  c.properties.toList ++ (planned.toList.filter fun d => decide (d.1 ∉ c.names)).map fun d =>
    (d.1, .declare d.1 d.2)

/-- What a plan makes of a graph, and the handles that it gives out. -/
structure Applied (s : Schema) (g g' : Graph) (handles : SchemaHandles) : Prop where
  nodes : g'.nodeCatalog.properties.toList = extended g.nodeCatalog s.node
  edges : g'.edgeCatalog.properties.toList = extended g.edgeCatalog s.edge
  /-- handles that were given out before stay valid -/
  nodeGrows : g.nodeCatalog.GrowsInto g'.nodeCatalog
  edgeGrows : g.edgeCatalog.GrowsInto g'.edgeCatalog
  adjacency : g'.adjacency = g.adjacency
  attributes : g'.attributes = g.attributes
  state : g'.nodeCatalog.Resolves stateName handles.state
  turn : ∀ h, handles.turn = some h → g'.nodeCatalog.Resolves turnName h
  label : ∀ h, handles.label = some h → g'.nodeCatalog.Resolves labelName h
  action : g'.edgeCatalog.Resolves actionName handles.action
  prob : ∀ h, handles.prob = some h → g'.edgeCatalog.Resolves probName h
  turnPresent : handles.turn.isSome = true ↔ turnName ∈ g.nodeCatalog.names ∨ turnName ∈ s.node.keys
  labelPresent : handles.label.isSome = true ↔
    labelName ∈ g.nodeCatalog.names ∨ labelName ∈ s.node.keys
  probPresent : handles.prob.isSome = true ↔ probName ∈ g.edgeCatalog.names ∨ probName ∈ s.edge.keys

/-- A plan with the two properties that every plan has is applied to a graph whose properties
are in order. -/
theorem applied_of_wellFormed {s : Schema} (hstate : stateName ∈ s.node.keys)
    (haction : actionName ∈ s.edge.keys) {g : Graph} (hwell : g.WellFormed) :
    Applied s g (s.apply g).1 (s.apply g).2 := by
  have hnodeNames := Catalog.mem_names_declareEach_iff s.node.distinct g.nodeCatalog
  have hedgeNames := Catalog.mem_names_declareEach_iff s.edge.distinct g.edgeCatalog
  have hall := s.declareAll_eq g
  obtain ⟨handles, happly, hhanded⟩ := apply_eq_declareAll (s := s) (g := g)
    (hall ▸ (hnodeNames stateName).2 (.inr hstate))
    (hall ▸ (hedgeNames actionName).2 (.inr haction))
  rw [happly]
  rw [hall] at hhanded ⊢
  have hnodes := hwell.nodeProperties.declareEach s.node.toList
  have hedges := hwell.edgeProperties.declareEach s.edge.toList
  exact {
    nodes := Catalog.toList_declareEach s.node.distinct g.nodeCatalog
    edges := Catalog.toList_declareEach s.edge.distinct g.edgeCatalog
    nodeGrows := g.nodeCatalog.growsInto_declareEach s.node.toList
    edgeGrows := g.edgeCatalog.growsInto_declareEach s.edge.toList
    adjacency := rfl
    attributes := rfl
    state := hnodes.resolves hhanded.state
    turn := fun h hturn => hnodes.resolves (hhanded.turn.trans hturn)
    label := fun h hlabel => hnodes.resolves (hhanded.label.trans hlabel)
    action := hedges.resolves hhanded.action
    prob := fun h hprob => hedges.resolves (hhanded.prob.trans hprob)
    turnPresent := by
      rw [← hhanded.turn, Catalog.handle?_isSome_iff]
      exact hnodeNames turnName
    labelPresent := by
      rw [← hhanded.label, Catalog.handle?_isSome_iff]
      exact hnodeNames labelName
    probPresent := by
      rw [← hhanded.prob, Catalog.handle?_isSome_iff]
      exact hedgeNames probName }

/-- On a graph without declarations exactly what is planned is declared. -/
theorem extended_empty {ε : Type} (owner : Identity) (planned : Attributes) :
    extended (.empty owner : Catalog ε) planned =
      planned.toList.map fun d => (d.1, .declare d.1 d.2) := by
  refine (List.nil_append _).trans (congrArg (List.map _) (List.filter_eq_self.2 fun d _ => ?_))
  exact decide_eq_true List.not_mem_nil

theorem hasAtoms_eq_true_iff (atoms : Option LabelSet) :
    hasAtoms atoms = true ↔ ∃ set, atoms = some set ∧ set.isEmpty = false := by
  rw [hasAtoms]
  cases atoms <;> simp

theorem isWeighted_iff (branching : Branching) :
    branching.isWeighted = true ↔ branching = .quantitative := by
  cases branching <;> decide

section Applying

variable (branching : Branching) (turnBased : Bool) (atoms : Option LabelSet)
  (stateProperties transitionProperties : Attributes)

/-- What a plan makes of the empty graph: nothing but what was asked for. -/
structure Fresh (g : Graph) (handles : SchemaHandles) : Prop where
  nodes : g.nodeCatalog.properties.toList = (reservedNode turnBased atoms ++
    stateProperties.toList).map fun d => (d.1, .declare d.1 d.2)
  edges : g.edgeCatalog.properties.toList = (reservedEdge branching ++
    transitionProperties.toList).map fun d => (d.1, .declare d.1 d.2)
  turn : handles.turn.isSome = true ↔ turnBased = true
  label : handles.label.isSome = true ↔ ∃ set, atoms = some set ∧ set.isEmpty = false
  prob : handles.prob.isSome = true ↔ branching = .quantitative

variable {branching turnBased atoms stateProperties transitionProperties}

theorem applied_run {s : Schema}
    (hplan : plan branching turnBased atoms stateProperties transitionProperties = .ok s)
    {g : Graph} (horigin : g.Origin) (requests : List Request) :
    Applied s (g.run requests) (s.apply (g.run requests)).1 (s.apply (g.run requests)).2 := by
  obtain ⟨rfl, -, -⟩ := eq_of_plan_eq_ok hplan
  exact applied_of_wellFormed (stateName_mem turnBased atoms stateProperties)
    (actionName_mem branching transitionProperties) (horigin.wellFormed.run requests)

theorem fresh_apply {s : Schema}
    (hplan : plan branching turnBased atoms stateProperties transitionProperties = .ok s)
    (owner : Identity) : Fresh branching turnBased atoms stateProperties transitionProperties
      (s.apply (.empty owner)).1 (s.apply (.empty owner)).2 := by
  have happlied : Applied s (.empty owner) (s.apply (.empty owner)).1 (s.apply (.empty owner)).2 :=
    applied_run hplan (.new owner) []
  have hplanned := planned_of_plan_eq_ok hplan
  obtain ⟨rfl, hnodeFree, hedgeFree⟩ := eq_of_plan_eq_ok hplan
  constructor
  case nodes =>
    rw [happlied.nodes, ← hplanned.node]
    exact extended_empty owner _
  case edges =>
    rw [happlied.edges, ← hplanned.edge]
    exact extended_empty owner _
  case turn =>
    refine happlied.turnPresent.trans ((or_iff_right List.not_mem_nil).trans ?_)
    exact turnName_mem_iff hnodeFree turnBased atoms
  case label =>
    refine happlied.labelPresent.trans ((or_iff_right List.not_mem_nil).trans ?_)
    exact (labelName_mem_iff hnodeFree turnBased atoms).trans (hasAtoms_eq_true_iff atoms)
  case prob =>
    refine happlied.probPresent.trans ((or_iff_right List.not_mem_nil).trans ?_)
    exact (probName_mem_iff hedgeFree branching).trans (isWeighted_iff branching)

variable (branching turnBased atoms stateProperties transitionProperties)

/-- A plan is refused for reserved names only, and a plan that is accepted is applied as it was
made, to the empty graph and to whatever a history has made of a graph. -/
theorem plans_and_applied :
    Plans branching turnBased atoms stateProperties transitionProperties ∧
      ∀ s, plan branching turnBased atoms stateProperties transitionProperties = .ok s →
        Planned branching turnBased atoms stateProperties transitionProperties s ∧
        (∀ owner, Fresh branching turnBased atoms stateProperties transitionProperties
          (s.apply (.empty owner)).1 (s.apply (.empty owner)).2) ∧
        ∀ g : Graph, g.Origin → ∀ requests, Applied s (g.run requests)
          (s.apply (g.run requests)).1 (s.apply (g.run requests)).2 :=
  ⟨plans branching turnBased atoms stateProperties transitionProperties, fun _ hplan =>
    ⟨planned_of_plan_eq_ok hplan, fresh_apply hplan, fun _ => applied_run hplan⟩⟩

/-- A plan with a turn and probabilities, applied to the empty graph and to one that has a cost with
another default and a label. -/
theorem plans_and_applied_turns :
    plan .quantitative true none (.ofList [("cost", .int 0), (turnName, .null), (labelName, .null)])
        .empty = .error (.nameConflict .state [turnName, labelName]) ∧
      ∃ s, plan .quantitative true none (.ofList [("cost", .int 0)])
          (.ofList [("reward", .int 0)]) = .ok s ∧
        Fresh .quantitative true none (.ofList [("cost", .int 0)]) (.ofList [("reward", .int 0)])
          (s.apply (.empty ⟨0⟩)).1 (s.apply (.empty ⟨0⟩)).2 ∧
        Applied s ((Graph.empty ⟨0⟩).run
            [.declareNodeProperty "cost" (.int 7), .declareNodeProperty labelName .null])
          ⟨.isolated 0, .declared ⟨0⟩ (.ofList [("cost", .int 7), (labelName, .null),
              (stateName, .null), (turnName, .int (-1))]),
            .declared ⟨0⟩ (.ofList [(actionName, .null), (probName, .int (-1)),
              ("reward", .int 0)]), .empty⟩
          ⟨⟨⟨0⟩, 2⟩, some ⟨⟨0⟩, 3⟩, some ⟨⟨0⟩, 1⟩, ⟨⟨0⟩, 0⟩, some ⟨⟨0⟩, 1⟩⟩ := by
  have hconflict := (plans_and_applied .quantitative true none
    (.ofList [("cost", .int 0), (turnName, .null), (labelName, .null)]) .empty).1.stateConflict
      turnName [labelName] (by decide)
  obtain ⟨hplans, happlies⟩ := plans_and_applied .quantitative true none
    (.ofList [("cost", .int 0)]) (.ofList [("reward", .int 0)])
  obtain ⟨s, hplan⟩ := hplans.accepted.2 (by decide)
  obtain ⟨-, hfresh, happlied⟩ := happlies s hplan
  refine ⟨hconflict, s, hplan, hfresh ⟨0⟩, ?_⟩
  cases hplan
  exact happlied _ (.new ⟨0⟩) _

end Applying

end Schema

end StateGraph
