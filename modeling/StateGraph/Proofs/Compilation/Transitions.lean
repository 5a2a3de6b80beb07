import StateGraph.Proofs.Compilation.States

set_option autoImplicit false

/-!
# Compiling transitions

An answer is looked at as a whole before the first of its edges is added: its shape,
then whether it is a distribution, then its successors one by one.  What it gives is
a list of edges (`Generator.newEdge`).  Each of them is added with all that is said of
it, as long as its pair of nodes has a key left (`Generator.addTransition_eq`).
-/

namespace StateGraph.Generator

variable {σ α : Type} {gen : Generator σ α} {handles : SchemaHandles} {g : Graph}

/-! ## Answers -/

/-- The shape that answers must have. -/
def expectedShape : Branching → Shape
  | .deterministic => .single
  | .qualitative => .unweighted
  | .quantitative => .weighted

section Answers

variable [Shown σ] [Shown α]

/-- What is wrong with the answer to a state and an action: it has another shape than
promised, or is not a distribution. -/
def answerFaults (gen : Generator σ α) (options : CompileOptions) (s : σ) (a : α) :
    List CompileError :=
  if (gen.delta s a).shape = expectedShape gen.branching then
    match gen.delta s a with
    | .weighted ts =>
      match Distribution.check (ts.map Prod.snd) options.tolerance with
      | .ok () => []
      | .error fault => [.invalidDistribution (shown s) (shown a) fault]
    | _ => []
  else [.shapeMismatch (shown s) (shown a) gen.branching (gen.delta s a).shape]

theorem answerFaults_eq_nil_iff (options : CompileOptions) (s : σ) (a : α) :
    gen.answerFaults options s a = [] ↔ (gen.delta s a).shape = expectedShape gen.branching ∧
      ∀ ts, gen.delta s a = .weighted ts →
        Distribution.check (ts.map Prod.snd) options.tolerance = .ok () := by
  unfold answerFaults
  by_cases hshape : (gen.delta s a).shape = expectedShape gen.branching
  · rw [if_pos hshape, and_iff_right hshape]
    cases gen.delta s a with
    | single t => simp
    | choice ts => simp
    | weighted ts =>
      cases hcheck : Distribution.check (ts.map Prod.snd) options.tolerance with
      | ok accepted => simp [hcheck]
      | error fault => simp [hcheck]
  · simp [hshape]

/-- An answer without faults gives its successors. -/
theorem settles_targets (gen : Generator σ α) (options : CompileOptions) (s : σ) (a : α) :
    Settles (gen.targets options s a) (gen.answerFaults options s a)
      (· = (gen.delta s a).toList) := by
  unfold targets answerFaults
  cases gen.branching with
  | deterministic =>
    cases gen.delta s a with
    | single t => exact settles_ok rfl
    | choice ts => rfl
    | weighted ts => rfl
  | qualitative =>
    cases gen.delta s a with
    | single t => rfl
    | choice ts => exact settles_ok rfl
    | weighted ts => rfl
  | quantitative =>
    cases gen.delta s a with
    | single t => rfl
    | choice ts => rfl
    | weighted ts =>
      simp only [Successors.shape, expectedShape, if_true]
      cases Distribution.check (ts.map Prod.snd) options.tolerance with
      | ok accepted => exact settles_ok rfl
      | error fault => rfl

variable [DecidableEq σ]

/-- What is wrong with a successor. -/
def successorFaults (states : List σ) (s : σ) (a : α) (t : σ × Option Binary64) :
    List CompileError :=
  if t.1 ∈ states then [] else [.unknownState (shown s) (shown a) (shown t.1)]

/-- The node of a state in an index. -/
def nodeIn (index : OrderedMap σ NodeId) (s : σ) : NodeId := (index.get? s).getD default

/-- A successor is looked up among the states. -/
theorem settles_resolve {index : OrderedMap σ NodeId} {states : List σ}
    (hkeys : index.keys = states) (s : σ) (a : α) (t : σ × Option Binary64) :
    Settles (resolve index s a t) (successorFaults states s a t)
      (· = (t.1, t.2, nodeIn index t.1)) := by
  have hmem := OrderedMap.get?_isSome_iff index t.1
  rw [hkeys] at hmem
  unfold resolve successorFaults nodeIn
  cases hget : index.get? t.1 with
  | none =>
    have hother : t.1 ∉ states := fun h => by simpa [hget] using hmem.2 h
    rw [if_neg hother]
    rfl
  | some n =>
    rw [if_pos (hmem.1 (by rw [hget]; rfl))]
    exact settles_ok rfl

end Answers

/-! ## Transitions -/

section Transitions

variable [ToValue α]

/-- Everything that a generator says of a transition. -/
def transitionValues (gen : Generator σ α) (s : σ) (a : α) (t : σ × Option Binary64) :
    List (String × Value) :=
  [(Schema.actionName, toValue a)] ++
    (t.2.map fun p => (Schema.probName, Value.float p)).toList ++
    (gen.transitionAttributes s a t.1).toList.filter fun x => gen.schema.isFurtherEdge x.1

/-- What is said of every transition has reserved names. -/
theorem isReserved_of_mem_transition (a : α) (p : Option Binary64) :
    ∀ name ∈ ([(Schema.actionName, toValue a)] ++
      (p.map fun p => (Schema.probName, Value.float p)).toList).map Prod.fst,
        Schema.isReserved name = true := by
  cases p with
  | none =>
    show ∀ name ∈ [Schema.actionName], Schema.isReserved name = true
    decide
  | some p =>
    show ∀ name ∈ [Schema.actionName, Schema.probName], Schema.isReserved name = true
    decide

/-- The values of a transition have distinct names. -/
theorem nodup_transitionValues (gen : Generator σ α) (s : σ) (a : α) (t : σ × Option Binary64) :
    ((gen.transitionValues s a t).map Prod.fst).Nodup := by
  refine Schema.nodup_append_further (isReserved_of_mem_transition a t.2)
    (fun _ => Schema.isReserved_of_isFurtherEdge) ?_ _
  cases t.2 with
  | none => exact List.nodup_singleton _
  | some p =>
    show [Schema.actionName, Schema.probName].Nodup
    decide

theorem lookup_actionName (gen : Generator σ α) (s : σ) (a : α) (t : σ × Option Binary64) :
    AssocList.lookup Schema.actionName (gen.transitionValues s a t) = some (toValue a) := rfl

theorem lookup_probName (gen : Generator σ α) (s : σ) (a : α) {t : σ × Option Binary64}
    {p : Binary64} (hp : t.2 = some p) :
    AssocList.lookup Schema.probName (gen.transitionValues s a t) = some (.float p) := by
  rw [transitionValues, hp]
  rfl

/-- A further property has the value that the transition gives it. -/
theorem lookup_further {name : String} (hname : gen.schema.isFurtherEdge name = true) (s : σ)
    (a : α) (t : σ × Option Binary64) :
    AssocList.lookup name (gen.transitionValues s a t) =
      (gen.transitionAttributes s a t.1).get? name :=
  Schema.lookup_append_further (isReserved_of_mem_transition a t.2)
    (fun _ => Schema.isReserved_of_isFurtherEdge) _ hname

omit [ToValue α] in
/-- Values on edges leave a schema installed. -/
theorem installed_putEdgeValues (hinstalled : gen.schema.Installed handles g) (e : EdgeId)
    (values : List (String × Value)) : gen.schema.Installed handles (g.putEdgeValues e values) :=
  hinstalled.congr rfl rfl (Catalog.owner_putMany _ _ _) (Catalog.names_putMany _ _ _)

omit [ToValue α] in
/-- Further values on an edge are accepted. -/
theorem writeTransitionAttributes_eq_ok (hinstalled : gen.schema.Installed handles g) {e : EdgeId}
    (he : g.hasEdge e = true) (values : Attributes) :
    writeTransitionAttributes gen.schema e g values =
      .ok (g.putEdgeValues e (values.toList.filter fun x => gen.schema.isFurtherEdge x.1)) := by
  refine foldlM_write_eq_ok (fun g => gen.schema.Installed handles g ∧ g.hasEdge e = true)
    (fun g name v => g.setEdgeValueByName name e v) (fun g l => g.putEdgeValues e l) ?_ ?_
    (fun _ => rfl) (fun g => g.putEdgeValues_append e) values.toList ⟨hinstalled, he⟩
  · rintro g name v ⟨hinstalled, he⟩ hwanted
    have hname : name ∈ g.edgeCatalog.names := by
      rw [hinstalled.edgeNames, ← OrderedMap.contains_iff_mem_keys]
      exact (Bool.and_eq_true_iff.1 hwanted).2
    exact Graph.setEdgeValueByName_eq_ok hname he v
  · rintro g l ⟨hinstalled, he⟩
    exact ⟨installed_putEdgeValues hinstalled e l, he⟩

/-- All that is said of a transition is accepted; a probability is passed over if there is no
property for it. -/
theorem writeTransition_eq_ok (hinstalled : gen.schema.Installed handles g) {e : EdgeId}
    (he : g.hasEdge e = true) (s : σ) (a : α) (t : σ × Option Binary64) (n : NodeId) :
    gen.writeTransition gen.schema handles s a e g (t.1, t.2, n) =
      .ok (g.putEdgeValues e (gen.transitionValues s a t)) := by
  obtain ⟨t, p⟩ := t
  have hrest : ∀ l, writeTransitionAttributes gen.schema e (g.putEdgeValues e l)
      (gen.transitionAttributes s a t) = .ok (g.putEdgeValues e
        (l ++ (gen.transitionAttributes s a t).toList.filter
          fun x => gen.schema.isFurtherEdge x.1)) := by
    intro l
    rw [writeTransitionAttributes_eq_ok (installed_putEdgeValues hinstalled e l) he,
      Graph.putEdgeValues_append]
  have hinstalled₁ := installed_putEdgeValues hinstalled e [(Schema.actionName, toValue a)]
  unfold writeTransition transitionValues
  simp only
  rw [Graph.setEdgeValue_eq_ok hinstalled.action he, ok_bind]
  cases p with
  | none => cases handles.prob <;> exact hrest _
  | some p =>
    have hhandle := hinstalled₁.prob
    cases hprob : handles.prob with
    | some prob =>
      rw [hprob] at hhandle
      simp only
      rw [Graph.setEdgeValue_eq_ok hhandle he, ok_bind, ← Graph.putEdgeValues_append]
      exact hrest _
    | none =>
      rw [hprob, Catalog.handle?_eq_none_iff] at hhandle
      have hskip := Graph.putEdgeValues_of_not_mem hhandle e (.float p)
      rw [← Graph.putEdgeValues_append] at hskip
      simp only
      rw [ok_bind, ← hskip]
      exact hrest _

/-- A transition becomes the next edge of its pair, with all that is said of it, if the pair
has a key left. -/
theorem addTransition_eq (hinstalled : gen.schema.Installed handles g) {source n : NodeId}
    (hsource : g.hasNode source = true) (hn : g.hasNode n = true) (s : σ) (a : α)
    (t : σ × Option Binary64) :
    gen.addTransition gen.schema handles source s a g (t.1, t.2, n) =
      if g.adjacency.isFull source n then .error .overflow
      else .ok (g.withEdge ⟨source, n, gen.transitionValues s a t⟩) := by
  have hwrite := writeTransition_eq_ok (g := { g with adjacency := g.adjacency.withEdge source n })
    (hinstalled.congr rfl rfl rfl rfl) (Adjacency.hasEdge_withEdge_self g.adjacency source n)
    s a t n
  unfold addTransition
  rw [Graph.addEdge_of_hasNode hsource hn]
  cases g.adjacency.isFull source n with
  | true => rfl
  | false =>
    rw [if_neg Bool.false_ne_true, if_neg Bool.false_ne_true, ok_bind]
    simp only
    rw [hwrite]
    rfl

/-- What an action leads to in a state, action by action: each successor comes with
its action and with its probability if it has one. -/
def outcomes (gen : Generator σ α) (s : σ) : List (α × σ × Option Binary64) :=
  gen.actions.flatMap fun a => (gen.delta s a).toList.map fun t => (a, t)

variable [DecidableEq σ]

omit [ToValue α] in
/-- The outcomes that lead from one state to another. -/
def outcomesTo (gen : Generator σ α) (s s' : σ) : List (α × σ × Option Binary64) :=
  (gen.outcomes s).filter fun o => decide (o.2.1 = s')

/-- The edge of an outcome. -/
def newEdge (gen : Generator σ α) (index : OrderedMap σ NodeId) (s : σ)
    (o : α × σ × Option Binary64) : NewEdge :=
  ⟨nodeIn index s, nodeIn index o.2.1, gen.transitionValues s o.1 o.2⟩

/-- The edges of all states. -/
def newEdges (gen : Generator σ α) (index : OrderedMap σ NodeId) : List NewEdge :=
  gen.states.flatMap fun s => (gen.outcomes s).map (gen.newEdge index s)

/-- The graph has the properties of the schema and the nodes of the index. -/
structure Ready (gen : Generator σ α) (handles : SchemaHandles) (index : OrderedMap σ NodeId)
    (g : Graph) : Prop where
  installed : gen.schema.Installed handles g
  nodes : ∀ s ∈ index.keys, g.hasNode (nodeIn index s) = true

omit [ToValue α] in
/-- When all states have their nodes, everything is ready for edges. -/
theorem StatesAdded.ready [ToValue σ] {owner : Identity} {acc : Graph × OrderedMap σ NodeId}
    (hadded : StatesAdded gen owner handles gen.states acc) (hfew : gen.states.length < 2 ^ 32) :
    gen.Ready handles acc.2 acc.1 where
  installed := hadded.installed
  nodes s hs := by
    obtain ⟨n, hn⟩ := Option.isSome_iff_exists.1 ((OrderedMap.get?_isSome_iff acc.2 s).2 hs)
    have hmem : (s, n) ∈ numbered gen.states :=
      hadded.index ▸ (OrderedMap.get?_eq_some_iff acc.2 s n).1 hn
    rw [nodeIn, hn, Option.getD_some, hadded.graph]
    exact hasNode_of_mem_numbered hfew hmem

variable {index : OrderedMap σ NodeId}

omit [ToValue α] in
/-- New edges leave everything ready for further ones. -/
theorem Ready.withEdges (hready : gen.Ready handles index g) (ds : List NewEdge) :
    gen.Ready handles index (g.withEdges ds) where
  installed := by
    refine hready.installed.congr ?_ ?_ ?_ ?_
    · rw [Graph.nodeCatalog_withEdges]
    · rw [Graph.nodeCatalog_withEdges]
    · exact Graph.owner_edgeCatalog_withEdges g ds
    · exact Graph.names_edgeCatalog_withEdges g ds
  nodes s hs := by
    rw [Graph.hasNode_withEdges]
    exact hready.nodes s hs

end Transitions

end StateGraph.Generator
