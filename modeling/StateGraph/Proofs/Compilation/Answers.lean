import StateGraph.Proofs.Compilation.Navigation
import StateGraph.Proofs.Compilation.Storing
import StateGraph.Proofs.EdgeViews

set_option autoImplicit false

/-!
# Compiled systems tell what generators say

Of the node of a state, a compiled system tells the outcomes, target by target, and the
actions whose answer is not empty (`Generator.answers_of_compile_eq_ok`).

Of nodes that do not exist it tells nothing (`TransitionSystem.Refuses`).
-/

namespace StateGraph

/-! ## Nodes that do not exist -/

/-- Values are on elements that exist, and so nothing can be read of others. -/
theorem Catalog.Within.exists_readByName_eq_error {ε : Type} [DecidableEq ε] [Element ε]
    {exists? : ε → Bool} {c : Catalog ε} (hwithin : c.Within exists?) (name : String) {e : ε}
    (he : exists? e = false) : ∃ error, c.readByName exists? name e = .error error := by
  rw [readByName, byName]
  cases hget : c.properties.get? name with
  | none => exact ⟨_, rfl⟩
  | some p =>
    have hnone : p.values.get? e = none := by
      rw [OrderedMap.get?_eq_none_iff]
      intro hkey
      have hexists := hwithin.supported name p ((OrderedMap.get?_eq_some_iff _ _ _).1 hget) e hkey
      rw [he] at hexists
      cases hexists
    rw [ok_bind, Property.read, Property.explicit?, hnone]
    exact ⟨_, if_neg (by rw [he]; exact Bool.false_ne_true)⟩

namespace TransitionSystem

variable {σ α : Type} {t : TransitionSystem σ α} {n : NodeId}

/-- Nothing is told of a node. -/
structure Refuses [ToValue α] (t : TransitionSystem σ α) (n : NodeId) : Prop where
  transitions : t.transitions n = .error (.nodeNotFound n)
  enabledActions : t.enabledActions n = .error (.nodeNotFound n)
  labels : ∃ error, t.labels n = .error error

theorem refuses_of_within [ToValue α] (hwithin : t.graph.nodeCatalog.Within t.graph.hasNode)
    (hn : t.graph.hasNode n = false) : t.Refuses n := by
  have hmissing : t.graph.adjacency.requireNode n = .error (.nodeNotFound n) := by
    rw [Adjacency.requireNode, show t.graph.adjacency.hasNode n = false from hn]
    rfl
  have htransitions : t.transitions n = .error (.nodeNotFound n) := by
    rw [TransitionSystem.transitions, hmissing]
    rfl
  refine ⟨htransitions, by rw [TransitionSystem.enabledActions, htransitions]; rfl, ?_⟩
  unfold TransitionSystem.labels
  split
  · obtain ⟨error, herror⟩ := hwithin.exists_readByName_eq_error Schema.labelName hn
    rw [Graph.nodeValueByName, herror]
    exact ⟨error, rfl⟩
  · rw [hmissing]
    exact ⟨_, rfl⟩

/-! ## Transitions to one target -/

/-- The transitions from a node are its edges, read with the properties that are there; nothing is
needed if there are none. -/
theorem transitions_eq_ok {ts : List Transition} (hts : t.transitions n = .ok ts) :
    (t.graph.outEdges n = [] ∧ ts = []) ∨
      ∃ action prob, t.graph.edgeCatalog.byName Schema.actionName = .ok action ∧
        t.probProperty = .ok prob ∧ ts = (t.graph.outEdges n).map (transitionOf action prob) := by
  unfold TransitionSystem.transitions at hts
  obtain ⟨⟨⟩, -, hts⟩ := bind_eq_ok_iff.1 hts
  split at hts
  · rename_i hempty
    cases hts
    refine .inl ⟨?_, rfl⟩
    rw [Graph.outEdges, Adjacency.outEdges_eq_flatMap, show t.graph.adjacency.successors n = []
      from List.isEmpty_iff.1 hempty]
    rfl
  · obtain ⟨action, haction, hts⟩ := bind_eq_ok_iff.1 hts
    obtain ⟨prob, hprob, hts⟩ := bind_eq_ok_iff.1 hts
    cases hts
    exact .inr ⟨action, prob, haction, hprob, rfl⟩

end TransitionSystem

theorem Successors.isEmpty_iff {σ : Type} (ss : Successors σ) :
    ss.isEmpty = true ↔ ss.toList = [] := by
  cases ss <;> simp [isEmpty, size, toList]

namespace Generator

variable {σ α : Type} [DecidableEq σ] [ToValue α] {gen : Generator σ α} {options : CompileOptions}

/-! ## Answers -/

/-- What a compiled system tells of the node of a state. -/
structure Answers (gen : Generator σ α) (t : TransitionSystem σ α) (s : σ) : Prop where
  /-- the outcomes, target by target -/
  transitions : t.transitions (nodeIn t.states s) = .ok (gen.transitionsOf t.states s)
  /-- outcomes have probabilities in systems with distributions, and in no others -/
  weighted : ∀ tr ∈ gen.transitionsOf t.states s,
    tr.probability.isSome = t.branching.isWeighted
  /-- the actions with an answer that is not empty -/
  enabledActions : (∀ a ∈ gen.actions, ∀ b ∈ gen.actions, toValue a = toValue b → a = b) →
    t.enabledActions (nodeIn t.states s) =
      .ok (gen.actions.filter fun a => !(gen.delta s a).isEmpty)

omit [DecidableEq σ] [ToValue α] in
/-- Outcomes have probabilities in systems with distributions, and in no others. -/
theorem Acceptable.isSome_probability (hacceptable : gen.Acceptable options) {s : σ}
    (hs : s ∈ gen.states) {o : α × σ × Option Binary64} (ho : o ∈ gen.outcomes s) :
    o.2.2.isSome = gen.branching.isWeighted := by
  by_cases hweighted : gen.branching = .quantitative
  · obtain ⟨p, hp⟩ := hacceptable.exists_probability hweighted hs ho
    rw [hp, hweighted]
    rfl
  · rw [hacceptable.probability_eq_none hweighted hs ho]
    cases hcase : gen.branching with
    | deterministic => rfl
    | qualitative => rfl
    | quantitative => exact absurd hcase hweighted

/-- The value of an action occurs among the transitions if its answer is not empty. -/
theorem toValue_mem_transitionsOf_iff
    (hdistinct : ∀ a ∈ gen.actions, ∀ b ∈ gen.actions, toValue a = toValue b → a = b)
    (index : OrderedMap σ NodeId) (s : σ) {a : α} (ha : a ∈ gen.actions) :
    toValue a ∈ (gen.transitionsOf index s).map (·.action) ↔ (gen.delta s a).isEmpty = false := by
  rw [mem_action_transitionsOf_iff, ← Bool.not_eq_true, Successors.isEmpty_iff]
  constructor
  · rintro ⟨o, ho, heq⟩ hnone
    obtain ⟨haction, htarget⟩ := (mem_outcomes_iff s o).1 ho
    rw [hdistinct _ haction _ ha heq, hnone] at htarget
    cases htarget
  · intro hsome
    obtain ⟨target, htarget⟩ := List.exists_mem_of_ne_nil _ hsome
    exact ⟨(a, target), (mem_outcomes_iff s _).2 ⟨ha, htarget⟩, rfl⟩

variable [ToValue σ] {owner : Identity} {t : TransitionSystem σ α}

/-- A compiled system tells what the generator says. -/
theorem Compiled.answers (hcompiled : gen.Compiled owner t) (hacceptable : gen.Acceptable options)
    (hfew : gen.states.length < 2 ^ 32) (hkeys : gen.HasKeys) {s : σ} (hs : s ∈ gen.states) :
    gen.Answers t s where
  transitions := hcompiled.transitions_eq hacceptable hfew hkeys hs
  weighted tr htr := by
    obtain ⟨o, ho, -, hprobability⟩ := exists_of_mem_transitionsOf htr
    rw [← hprobability, congrArg TransitionSystem.branching hcompiled.assembled]
    exact hacceptable.isSome_probability hs ho
  enabledActions hdistinct := by
    have hactions : t.actions = gen.actions :=
      congrArg TransitionSystem.actions hcompiled.assembled
    rw [TransitionSystem.enabledActions, hcompiled.transitions_eq hacceptable hfew hkeys hs,
      ok_bind, hactions]
    show Except.ok _ = Except.ok _
    refine congrArg _ (List.filter_congr fun a ha => ?_)
    rw [Bool.eq_iff_iff, decide_eq_true_iff, Bool.not_eq_true']
    exact toValue_mem_transitionsOf_iff hdistinct t.states s ha

/-- Values are on nodes that exist. -/
theorem Compiled.within_nodeCatalog (hcompiled : gen.Compiled owner t)
    (hfew : gen.states.length < 2 ^ 32) : t.graph.nodeCatalog.Within t.graph.hasNode := by
  have hnode : ∀ n, t.graph.hasNode n = (gen.graphOf owner gen.states).hasNode n := by
    intro n
    rw [congrArg TransitionSystem.graph hcompiled.assembled]
    exact Graph.hasNode_withEdges _ _ n
  rw [hcompiled.nodeCatalog]
  exact (within_labelled gen owner hfew).mono fun n hn => by rwa [hnode]

/-- A compiled system tells of each state what the generator says.  It tells nothing of nodes
that do not exist. -/
theorem answers_of_compile_eq_ok [Shown σ] [Shown α]
    (hcompile : gen.compile options owner = .ok t) :
    (∀ s ∈ gen.states, t.nodeOf? s = some (nodeIn t.states s) ∧ gen.Answers t s) ∧
      ∀ n, t.graph.hasNode n = false → t.Refuses n := by
  obtain ⟨hfew, hacceptable, hkeys, hcompiled⟩ := compiled_of_compile_eq_ok hcompile
  refine ⟨fun s hs => ⟨hcompiled.nodeOf?_eq hs, hcompiled.answers hacceptable hfew hkeys hs⟩, ?_⟩
  exact fun n hn => TransitionSystem.refuses_of_within (hcompiled.within_nodeCatalog hfew) hn

/-- Two states, an answer that names a state twice, and one with the probability -0. -/
def wandering : Generator Bool String where
  states := [false, true]
  actions := ["step", "stay"]
  delta := fun s a => .weighted (if a = "step" then [(true, ⟨0x3FE0000000000000⟩),
    (false, ⟨0x8000000000000000⟩), (true, ⟨0x3FE0000000000000⟩)] else [(s, .one)])
  turnBased := false
  deterministic := false

/-- Targets in the order of arrival, and the sign of the zero stays. -/
def wanderingTransitions : List Transition :=
  [⟨⟨⟨0⟩, ⟨1⟩, 0⟩, .text "step", some ⟨0x3FE0000000000000⟩⟩,
    ⟨⟨⟨0⟩, ⟨1⟩, 1⟩, .text "step", some ⟨0x3FE0000000000000⟩⟩,
    ⟨⟨⟨0⟩, ⟨0⟩, 0⟩, .text "step", some ⟨0x8000000000000000⟩⟩,
    ⟨⟨⟨0⟩, ⟨0⟩, 1⟩, .text "stay", some .one⟩]

theorem answers_wandering :
    ∃ t, wandering.compile .standard ⟨0⟩ = .ok t ∧
      (∀ s ∈ wandering.states, wandering.Answers t s) ∧ t.Refuses ⟨2⟩ ∧
      t.transitions ⟨0⟩ = .ok wanderingTransitions := by
  have hcompiles : ∃ t, wandering.compile .standard ⟨0⟩ = .ok t ∧ t.graph.hasNode ⟨2⟩ = false ∧
      t.transitions ⟨0⟩ = .ok wanderingTransitions :=
    exists_eq_ok_of_test (by decide +kernel)
  obtain ⟨t, hcompile, hmissing, htransitions⟩ := hcompiles
  obtain ⟨hanswers, hrefuses⟩ := answers_of_compile_eq_ok hcompile
  exact ⟨t, hcompile, fun s hs => (hanswers s hs).2, hrefuses ⟨2⟩ hmissing, htransitions⟩

end Generator

end StateGraph
