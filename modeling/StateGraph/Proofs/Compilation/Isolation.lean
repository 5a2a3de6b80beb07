import StateGraph.Proofs.Compilation.NodeData

set_option autoImplicit false

/-!
# Attributes that are not declared do not count

A generator may give its states and transitions any attributes.  Only those whose names it
declares as further properties, each in its own scope, have an effect: reserved names, names
that are not declared and names of the other scope are passed over, in compilations that
fail as well as in those that succeed (`Generator.compile_withAttributes`).

Two runs are compared step by step.  Either both fail or overflow in the same way, or both write
values that agree under every name, and then they leave the same graph behind.
-/

namespace StateGraph

/-! ## The same values on the same edges -/

namespace Graph

/-- Values in another order, or under names that are not declared, make no difference. -/
theorem putNodeValues_congr (g : Graph) (n : NodeId) {values values' : List (String × Value)}
    (hnodup : (values.map Prod.fst).Nodup) (hnodup' : (values'.map Prod.fst).Nodup)
    (hsame : ∀ name, AssocList.lookup name values = AssocList.lookup name values') :
    g.putNodeValues n values = g.putNodeValues n values' := by
  rw [putNodeValues, putNodeValues,
    Catalog.putMany_congr n hnodup hnodup' fun name _ => hsame name]

theorem putEdgeValues_congr (g : Graph) (e : EdgeId) {values values' : List (String × Value)}
    (hnodup : (values.map Prod.fst).Nodup) (hnodup' : (values'.map Prod.fst).Nodup)
    (hsame : ∀ name, AssocList.lookup name values = AssocList.lookup name values') :
    g.putEdgeValues e values = g.putEdgeValues e values' := by
  rw [putEdgeValues, putEdgeValues,
    Catalog.putMany_congr e hnodup hnodup' fun name _ => hsame name]

end Graph

namespace Generator

variable {σ α : Type} {gen : Generator σ α} {x : σ → Attributes} {y : σ → α → σ → Attributes}

/-! ## Generators that differ in attributes -/

/-- The generator with other attributes. -/
def withAttributes (gen : Generator σ α) (x : σ → Attributes) (y : σ → α → σ → Attributes) :
    Generator σ α :=
  { gen with stateAttributes := x, transitionAttributes := y }

/-- Other attributes agree with those of a generator if they differ only under names that are
reserved or that it does not declare in their scope. -/
structure AgreesOn (gen : Generator σ α) (x : σ → Attributes) (y : σ → α → σ → Attributes) :
    Prop where
  states : ∀ s, ∀ name ∈ gen.stateProperties.keys, Schema.isReserved name = false →
    (x s).get? name = (gen.stateAttributes s).get? name
  transitions : ∀ s a s', ∀ name ∈ gen.transitionProperties.keys, Schema.isReserved name = false →
    (y s a s').get? name = (gen.transitionAttributes s a s').get? name

/-- Attributes that agree say the same of a state. -/
theorem AgreesOn.lookup_stateValues [ToValue σ] (hagrees : gen.AgreesOn x y) (s : σ)
    (name : String) : AssocList.lookup name ((gen.withAttributes x y).stateValues s) =
      AssocList.lookup name (gen.stateValues s) := by
  refine AssocList.lookup_append_filter_congr _ gen.schema.isFurtherNode fun hname => ?_
  rw [Schema.isFurtherNode, Bool.and_eq_true, Bool.not_eq_true'] at hname
  obtain ⟨hfree, hdeclared⟩ := hname
  have hfurther : name ∈ gen.stateProperties.keys := Schema.mem_keys_of_isFurther
    (Schema.nodup_reservedNode _ _) (fun _ => Schema.isReserved_of_mem_reservedNode) hfree hdeclared
  exact hagrees.states s name hfurther hfree

/-- Attributes that agree say the same of a transition. -/
theorem AgreesOn.lookup_transitionValues [ToValue α] (hagrees : gen.AgreesOn x y) (s : σ) (a : α)
    (t : σ × Option Binary64) (name : String) :
    AssocList.lookup name ((gen.withAttributes x y).transitionValues s a t) =
      AssocList.lookup name (gen.transitionValues s a t) := by
  refine AssocList.lookup_append_filter_congr _ gen.schema.isFurtherEdge fun hname => ?_
  rw [Schema.isFurtherEdge, Bool.and_eq_true, Bool.not_eq_true'] at hname
  obtain ⟨hfree, hdeclared⟩ := hname
  have hfurther : name ∈ gen.transitionProperties.keys := Schema.mem_keys_of_isFurther
    (Schema.nodup_reservedEdge _) (fun _ => Schema.isReserved_of_mem_reservedEdge) hfree hdeclared
  exact hagrees.transitions s a t.1 name hfurther hfree

variable {handles : SchemaHandles} {g : Graph}

/-! ## States -/

section States

variable [DecidableEq σ] [ToValue σ] [Shown σ]

omit [DecidableEq σ] [ToValue σ] [Shown σ] in
/-- A node that is added exists, and leaves the schema installed. -/
theorem installed_addNode {g' : Graph} {n : NodeId} (hinstalled : gen.schema.Installed handles g)
    (hadd : g.addNode = .ok (g', n)) :
    gen.schema.Installed handles g' ∧ g'.hasNode n = true := by
  obtain ⟨a, span, hnodes, rfl, rfl⟩ := Graph.addNode_eq_ok hadd
  obtain ⟨hroom, rfl, rfl⟩ := (Adjacency.addNodes_eq_ok_iff _ _ _ _).1 hnodes
  refine ⟨hinstalled.congr rfl rfl rfl rfl, ?_⟩
  rw [Graph.hasNode, Adjacency.hasNode_iff]
  show g.adjacency.nodeCount.toNat < (g.adjacency.nodeCount + 1).toNat
  have hnext := Adjacency.toNat_nodeCount_add hroom
  rw [UInt32.toNat_one] at hnext
  omega

/-- What adding a state comes to: no value is refused. -/
theorem addState_eq {acc : Graph × OrderedMap σ NodeId}
    (hinstalled : gen.schema.Installed handles acc.1) (s : σ) :
    gen.addState gen.schema handles acc s =
      if acc.2.contains s then .error (.duplicateState (shown s))
      else (CompileError.ofGraph acc.1.addNode).map fun r =>
        (r.1.putNodeValues r.2 (gen.stateValues s), acc.2.insert s r.2) := by
  obtain ⟨g, index⟩ := acc
  unfold addState
  simp only
  by_cases hknown : index.contains s = true
  · rw [if_pos hknown, if_pos hknown]
    rfl
  · rw [if_neg hknown, if_neg hknown]
    cases hnode : g.addNode with
    | error e => rfl
    | ok r =>
      obtain ⟨g', n⟩ := r
      obtain ⟨hadded, hn⟩ := installed_addNode hinstalled hnode
      rw [CompileError.ofGraph_ok, ok_bind]
      simp only
      rw [writeState_eq_ok hadded hn]
      rfl

/-- States that are added leave the schema installed. -/
theorem installed_addState {acc acc' : Graph × OrderedMap σ NodeId} {s : σ}
    (hinstalled : gen.schema.Installed handles acc.1)
    (hadd : gen.addState gen.schema handles acc s = .ok acc') :
    gen.schema.Installed handles acc'.1 := by
  rw [addState_eq hinstalled] at hadd
  split at hadd
  · cases hadd
  · obtain ⟨⟨g, n⟩, hnode, rfl⟩ := map_eq_ok_iff.1 hadd
    obtain ⟨hadded, -⟩ := installed_addNode hinstalled (CompileError.ofGraph_eq_ok_iff.1 hnode)
    exact installed_putNodeValues hadded n _

/-- States are added in the same way, or refused in the same way. -/
theorem AgreesOn.addStates_eq (hagrees : gen.AgreesOn x y)
    (hinstalled : gen.schema.Installed handles g) :
    (gen.withAttributes x y).addStates gen.schema handles g =
      gen.addStates gen.schema handles g := by
  have hsame : ∀ acc s, gen.schema.Installed handles acc.1 →
      (gen.withAttributes x y).addState gen.schema handles acc s =
        gen.addState gen.schema handles acc s := by
    intro acc s hinstalled
    have hvalues : ∀ (g : Graph) (n : NodeId),
        g.putNodeValues n ((gen.withAttributes x y).stateValues s) =
          g.putNodeValues n (gen.stateValues s) := fun g n =>
      g.putNodeValues_congr n ((gen.withAttributes x y).nodup_stateValues s)
        (gen.nodup_stateValues s) (hagrees.lookup_stateValues s)
    have hinstalled' : (gen.withAttributes x y).schema.Installed handles acc.1 := hinstalled
    have hother := addState_eq hinstalled' s
    simp only [hvalues] at hother
    exact hother.trans (addState_eq hinstalled s).symm
  have hkeeps : ∀ acc s acc', gen.schema.Installed handles acc.1 →
      (gen.withAttributes x y).addState gen.schema handles acc s = .ok acc' →
        gen.schema.Installed handles acc'.1 := by
    intro acc s acc' hinstalled hadd
    rw [hsame acc s hinstalled] at hadd
    exact installed_addState hinstalled hadd
  exact foldlM_congr_of_keeps (P := fun acc => gen.schema.Installed handles acc.1) hsame hkeeps
    gen.states hinstalled

end States

/-! ## Transitions -/

section Transitions

variable [ToValue α]

/-- An edge that is added exists, leaves the schema installed, and takes what is said of its
transition. -/
theorem writeTransition_of_addEdge {g' : Graph} {u v : NodeId} {e : EdgeId}
    (hinstalled : gen.schema.Installed handles g) (hadd : g.addEdge u v = .ok (g', e)) (s : σ)
    (a : α) (r : σ × Option Binary64 × NodeId) :
    gen.schema.Installed handles g' ∧ gen.writeTransition gen.schema handles s a e g' r =
      .ok (g'.putEdgeValues e (gen.transitionValues s a (r.1, r.2.1))) := by
  obtain ⟨-, -, rfl, rfl⟩ := (Graph.addEdge_eq_ok_iff _ _ _ _ _).1 hadd
  have hadded : gen.schema.Installed handles
      { g with adjacency := g.adjacency.withEdge u v } := hinstalled.congr rfl rfl rfl rfl
  exact ⟨hadded, writeTransition_eq_ok hadded (Adjacency.hasEdge_withEdge_self _ u v) s a
    (r.1, r.2.1) r.2.2⟩

/-- Transitions that are added leave the schema installed. -/
theorem installed_addTransition {g' : Graph} {source : NodeId} {s : σ} {a : α}
    {r : σ × Option Binary64 × NodeId} (hinstalled : gen.schema.Installed handles g)
    (hadd : gen.addTransition gen.schema handles source s a g r = .ok g') :
    gen.schema.Installed handles g' := by
  obtain ⟨⟨g₁, e⟩, hedge, hrest⟩ := bind_eq_ok_iff.1 hadd
  obtain ⟨hadded, hwrite⟩ := writeTransition_of_addEdge hinstalled hedge s a r
  simp only at hrest
  rw [hwrite] at hrest
  cases hrest
  exact installed_putEdgeValues hadded e _

/-- A transition is added in the same way, or fails in the same way. -/
theorem AgreesOn.addTransition_eq (hagrees : gen.AgreesOn x y)
    (hinstalled : gen.schema.Installed handles g) (source : NodeId) (s : σ) (a : α)
    (r : σ × Option Binary64 × NodeId) :
    (gen.withAttributes x y).addTransition gen.schema handles source s a g r =
      gen.addTransition gen.schema handles source s a g r := by
  refine bind_congr_of_ok fun ⟨g₁, e⟩ hedge => ?_
  have hinstalled' : (gen.withAttributes x y).schema.Installed handles g := hinstalled
  obtain ⟨-, hwrite⟩ := writeTransition_of_addEdge hinstalled hedge s a r
  obtain ⟨-, hwrite'⟩ := writeTransition_of_addEdge hinstalled' hedge s a r
  have hvalues := g₁.putEdgeValues_congr e
    ((gen.withAttributes x y).nodup_transitionValues s a (r.1, r.2.1))
    (gen.nodup_transitionValues s a (r.1, r.2.1))
    (hagrees.lookup_transitionValues s a (r.1, r.2.1))
  exact congrArg Fault.lift ((hwrite'.trans (congrArg Except.ok hvalues)).trans hwrite.symm)

variable [DecidableEq σ] [Shown σ] [Shown α]

/-- The transitions of a state with an action leave the schema installed. -/
theorem installed_addAction {options : CompileOptions} {index : OrderedMap σ NodeId}
    {source : NodeId} {s : σ} {g' : Graph} {a : α} (hinstalled : gen.schema.Installed handles g)
    (hadd : gen.addAction options gen.schema handles index source s g a = .ok g') :
    gen.schema.Installed handles g' := by
  obtain ⟨ts, -, hrest⟩ := bind_eq_ok_iff.1 hadd
  obtain ⟨resolved, -, hadded⟩ := bind_eq_ok_iff.1 hrest
  exact foldlM_keeps (fun _ _ _ => installed_addTransition) resolved hinstalled
    (mapError_eq_ok_iff.1 hadded)

theorem AgreesOn.addAction_eq (hagrees : gen.AgreesOn x y) (options : CompileOptions)
    (index : OrderedMap σ NodeId) (source : NodeId) (s : σ)
    (hinstalled : gen.schema.Installed handles g) (a : α) :
    (gen.withAttributes x y).addAction options gen.schema handles index source s g a =
      gen.addAction options gen.schema handles index source s g a := by
  refine bind_congr_of_ok fun ts _ => bind_congr_of_ok fun resolved _ => ?_
  refine congrArg (Except.mapError _) (foldlM_congr_of_keeps
    (P := gen.schema.Installed handles) ?_ ?_ resolved hinstalled)
  · exact fun g r hinstalled => hagrees.addTransition_eq hinstalled source s a r
  · intro g r g' hinstalled hadd
    rw [hagrees.addTransition_eq hinstalled source s a r] at hadd
    exact installed_addTransition hinstalled hadd

/-- Transitions are added in the same way, or fail in the same way. -/
theorem AgreesOn.addTransitions_eq (hagrees : gen.AgreesOn x y)
    (hinstalled : gen.schema.Installed handles g) (options : CompileOptions)
    (index : OrderedMap σ NodeId) :
    (gen.withAttributes x y).addTransitions options gen.schema handles index g =
      gen.addTransitions options gen.schema handles index g := by
  have hactions : ∀ (g : Graph) (entry : σ × NodeId), gen.schema.Installed handles g →
      gen.actions.foldlM ((gen.withAttributes x y).addAction options gen.schema handles index
        entry.2 entry.1) g =
      gen.actions.foldlM (gen.addAction options gen.schema handles index entry.2 entry.1) g := by
    intro g entry hinstalled
    refine foldlM_congr_of_keeps (P := gen.schema.Installed handles) ?_ ?_ gen.actions hinstalled
    · exact fun g a hinstalled => hagrees.addAction_eq options index entry.2 entry.1 hinstalled a
    · intro g a g' hinstalled hadd
      rw [hagrees.addAction_eq options index entry.2 entry.1 hinstalled a] at hadd
      exact installed_addAction hinstalled hadd
  refine foldlM_congr_of_keeps (P := gen.schema.Installed handles) hactions ?_ index.toList
    hinstalled
  intro g entry g' hinstalled hadd
  have hsame := (hactions g entry hinstalled).symm.trans hadd
  exact foldlM_keeps (fun _ _ _ => installed_addAction) gen.actions hinstalled hsame

end Transitions

/-! ## The whole compilation -/

variable [DecidableEq σ] [ToValue σ] [ToValue α] [Shown σ] [Shown α]

/-- Attributes that are reserved, not declared or declared in the other scope do not count. -/
theorem AgreesOn.compile_eq (hagrees : gen.AgreesOn x y) (options : CompileOptions)
    (owner : Identity) :
    (gen.withAttributes x y).compile options owner = gen.compile options owner := by
  have hstate : Schema.stateName ∈ gen.schema.node.keys :=
    Schema.stateName_mem gen.turnBased gen.atoms gen.stateProperties
  have haction : Schema.actionName ∈ gen.schema.edge.keys :=
    Schema.actionName_mem gen.branching gen.transitionProperties
  obtain ⟨handles, happly, hinstalled⟩ := Schema.apply_empty hstate haction owner
  refine bind_congr_of_ok fun _ _ => bind_congr_of_ok fun schema hplan => ?_
  obtain ⟨-, hschema, -⟩ :=
    (Schema.settles_plan _ _ _ _ _).faults_eq_nil (Fault.lift_eq_ok_iff.1 hplan)
  obtain rfl : schema = gen.schema := hschema
  rw [happly]
  refine (congrArg (Fault.lift · >>= _) (hagrees.addStates_eq hinstalled)).trans ?_
  refine bind_congr_of_ok fun acc hstates => ?_
  have hadded : gen.schema.Installed handles acc.1 :=
    foldlM_keeps (P := fun acc => gen.schema.Installed handles acc.1)
      (fun _ _ _ => installed_addState) gen.states hinstalled (Fault.lift_eq_ok_iff.1 hstates)
  exact congrArg (· >>= _) (hagrees.addTransitions_eq hadded options acc.2)

/-- The nodes of a compiled graph hold what the generator says of its states under the names
that it declares.  What it says of states and transitions under other names does not count,
whatever comes of the compilation. -/
theorem nodesHold_and_isolated (gen : Generator σ α) (options : CompileOptions) (owner : Identity) :
    (∀ t, gen.compile options owner = .ok t → gen.NodesHold t) ∧
      ∀ x y, gen.AgreesOn x y →
        (gen.withAttributes x y).compile options owner = gen.compile options owner := by
  refine ⟨fun t ht => ?_, fun x y hagrees => hagrees.compile_eq options owner⟩
  obtain ⟨hfew, hacceptable, -, hcompiled⟩ := compiled_of_compile_eq_ok ht
  exact hcompiled.nodesHold hfew hacceptable

/-- Two states, of which only the second one has a turn, a proposition and a cost of its own. -/
def twoStates : Generator Bool Bool where
  states := [false, true]
  actions := [false]
  delta s _ := .single (!s)
  turn s := if s then some 1 else none
  labeling := some ⟨.ofList ["p"], fun s => if s then .ofList ["p"] else .empty⟩
  stateProperties := .ofList [("cost", .int 0)]
  transitionProperties := .ofList [("weight", .int 1)]
  stateAttributes s := if s then .ofList [("cost", .int 5)] else .empty

/-- Attributes that write over reserved names, over the names of the other scope and over
names that nobody declared. -/
theorem nodesHold_and_isolated_twoStates :
    let x : Bool → Attributes := fun s =>
      (twoStates.stateAttributes s).insertMany [("turn", .text "none"), ("label", .null),
        ("weight", .int 3), ("other", .bool s)]
    let y : Bool → Bool → Bool → Attributes := fun s _ _ =>
      .ofList [("action", .bool s), ("cost", .int 7)]
    (∃ t, twoStates.compile .standard ⟨0⟩ = .ok t ∧ twoStates.NodesHold t) ∧
      twoStates.AgreesOn x y ∧
      (twoStates.withAttributes x y).compile .standard ⟨0⟩ = twoStates.compile .standard ⟨0⟩ := by
  intro x y
  have hagrees : twoStates.AgreesOn x y := ⟨by decide, by decide⟩
  obtain ⟨t, ht⟩ := twoStates.exists_compile_eq_ok .standard ⟨0⟩ (by decide) (by decide)
    (by decide)
  exact ⟨⟨t, ht, (nodesHold_and_isolated twoStates .standard ⟨0⟩).1 t ht⟩, hagrees,
    (nodesHold_and_isolated twoStates .standard ⟨0⟩).2 x y hagrees⟩

end Generator

end StateGraph
