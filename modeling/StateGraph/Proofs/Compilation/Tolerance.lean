import StateGraph.Proofs.Compilation.Rechecking

set_option autoImplicit false

/-!
# What the tolerance decides

The tolerance is looked at in two places: when options are validated, and when the sum of
a distribution is compared with 1.  A wider tolerance accepts every list that a narrower one
accepts (`Distribution.check_of_le`), and whatever else a compilation does depends on the
generator alone (`Generator.Compiled.eq_reissued`).

So with a wider tolerance more generators are compiled, but none is compiled to another
graph, and more systems pass when their distributions are checked.
-/

namespace StateGraph

/-! ## A wider tolerance -/

/-- A sum that is not too far from 1 is not too far with a wider tolerance.  A distance that
is not a number is below no tolerance and above none. -/
theorem Distribution.check_of_le {ps : List Binary64} {tolerance tolerance' : Binary64}
    (hle : tolerance.le tolerance' = true) (hcheck : check ps tolerance = .ok ()) :
    check ps tolerance' = .ok () := by
  unfold check at hcheck ⊢
  cases hsum : sumFrom .zero ps with
  | error fault =>
    rw [hsum] at hcheck
    cases hcheck
  | ok total =>
    rw [hsum] at hcheck
    simp only at hcheck ⊢
    by_cases hempty : ps.isEmpty = true
    · rw [if_pos hempty] at hcheck
      cases hcheck
    · rw [if_neg hempty] at hcheck ⊢
      refine if_neg fun hfar => ?_
      rw [if_pos (Binary64.lt_of_le_of_lt hle hfar)] at hcheck
      cases hcheck

section Options

variable {options options' : CompileOptions}

/-- What is acceptable stays so with a wider tolerance. -/
theorem Generator.Acceptable.of_le {σ α : Type} {gen : Generator σ α}
    (hacceptable : gen.Acceptable options) (hvalid : options'.isValid = true)
    (hle : options.tolerance.le options'.tolerance = true) : gen.Acceptable options' where
  tolerance := hvalid
  stateNames := hacceptable.stateNames
  transitionNames := hacceptable.transitionNames
  distinct := hacceptable.distinct
  shapes := hacceptable.shapes
  distributions s hs a ha ts hts :=
    Distribution.check_of_le hle (hacceptable.distributions s hs a ha ts hts)
  successors := hacceptable.successors
  labels := hacceptable.labels

namespace TransitionSystem

variable {σ α : Type} {t : TransitionSystem σ α}

/-- A node that passes does so with a wider tolerance: the same groups are looked at. -/
theorem checkNode_of_le (hle : options.tolerance.le options'.tolerance = true) {n : NodeId}
    (hpasses : t.checkNode options n = .ok ()) : t.checkNode options' n = .ok () := by
  unfold checkNode at hpasses ⊢
  cases hts : t.transitions n with
  | error e =>
    rw [hts] at hpasses
    cases hpasses
  | ok ts =>
    rw [hts] at hpasses
    refine (forM_eq_ok_iff _).2 fun group hgroup => ?_
    rw [checkAction_eq_ok_iff]
    have hfirst := (forM_eq_ok_iff _).1 hpasses group hgroup
    exact Distribution.check_of_le hle ((checkAction_eq_ok_iff options n group).1 hfirst)

theorem checkDistributions_of_le (hvalid : options'.isValid = true)
    (hle : options.tolerance.le options'.tolerance = true)
    (hpasses : t.checkDistributions options = .ok ()) :
    t.checkDistributions options' = .ok () := by
  by_cases hweighted : t.branching = .quantitative
  · have hnarrow : options.isValid = true := isValid_of_checkDistributions hpasses
    rw [checkDistributions_eq_ok_iff hnarrow hweighted] at hpasses
    rw [checkDistributions_eq_ok_iff hvalid hweighted]
    exact fun n hn => checkNode_of_le hle (hpasses n hn)
  · rw [checkDistributions_of_unweighted hweighted]
    exact if_pos hvalid

end TransitionSystem

end Options

/-! ## Another identity -/

namespace Catalog

variable {ε : Type} [DecidableEq ε]

/-- Values are written without a look at the identity. -/
theorem put_reissued (c : Catalog ε) (owner : Identity) (name : String) (e : ε) (v : Value) :
    (c.reissued owner).put name e v = (c.put name e v).reissued owner := by
  unfold put reissued
  simp only
  cases c.properties.get? name <;> rfl

theorem putMany_reissued (c : Catalog ε) (owner : Identity) (e : ε)
    (values : List (String × Value)) :
    (c.reissued owner).putMany e values = (c.putMany e values).reissued owner := by
  induction values generalizing c with
  | nil => rfl
  | cons value values ih =>
    have hfirst := c.put_reissued owner value.1 e value.2
    exact (congrArg (fun d => d.putMany e values) hfirst).trans (ih (c.put value.1 e value.2))

theorem putAll_reissued (c : Catalog ε) (owner : Identity)
    (entries : List (ε × List (String × Value))) :
    (c.reissued owner).putAll entries = (c.putAll entries).reissued owner := by
  induction entries generalizing c with
  | nil => rfl
  | cons entry entries ih =>
    have hfirst := c.putMany_reissued owner entry.1 entry.2
    exact (congrArg (fun d => d.putAll entries) hfirst).trans (ih (c.putMany entry.1 entry.2))

end Catalog

theorem Graph.withEdges_reissued (g : Graph) (owner : Identity) (ds : List NewEdge) :
    (g.reissued owner).withEdges ds = (g.withEdges ds).reissued owner := by
  induction ds generalizing g with
  | nil => rfl
  | cons d ds ih =>
    have hfirst : (g.reissued owner).withEdge d = (g.withEdge d).reissued owner :=
      congrArg (fun c => (⟨g.adjacency.withEdge d.source d.target, g.nodeCatalog.reissued owner, c,
        g.attributes⟩ : Graph)) (g.edgeCatalog.putMany_reissued owner (g.nextEdge d) d.values)
    exact (congrArg (fun g => g.withEdges ds) hfirst).trans (ih (g.withEdge d))

namespace Generator

variable {σ α : Type} [DecidableEq σ] [ToValue σ] [ToValue α] {gen : Generator σ α}

/-- The identity of its handles is all in a compiled graph that the generator does not say. -/
theorem compiledGraph_reissued (gen : Generator σ α) (owner owner' : Identity)
    (index : OrderedMap σ NodeId) :
    gen.compiledGraph owner' index = (gen.compiledGraph owner index).reissued owner' := by
  have hstates : gen.graphOf owner' gen.states = (gen.graphOf owner gen.states).reissued owner' :=
    congrArg (fun c => (⟨.isolated gen.states.length.toUInt32, c,
        .declared owner' gen.schema.edge, .empty⟩ : Graph))
      (Catalog.putAll_reissued (.declared owner gen.schema.node) owner'
        (gen.stateEntries gen.states))
  rw [compiledGraph, compiledGraph, hstates, Graph.withEdges_reissued]
  generalize (gen.graphOf owner gen.states).withEdges (gen.newEdges index) = g
  exact congrArg (fun c => (⟨g.adjacency, c, g.edgeCatalog.reissued owner', g.attributes⟩ : Graph))
    (Catalog.putAll_reissued g.nodeCatalog owner' gen.labelEntries)

/-- Two systems that were compiled from one generator are the same but for the identity of their
handles, whatever the options were. -/
theorem Compiled.eq_reissued {owner owner' : Identity} {t t' : TransitionSystem σ α}
    (hcompiled : gen.Compiled owner t) (hcompiled' : gen.Compiled owner' t') :
    t' = { t with graph := t.graph.reissued owner' } := by
  have hindex : t'.states = t.states :=
    OrderedMap.ext (hcompiled'.states.trans hcompiled.states.symm)
  have hassembled' := hcompiled'.assembled
  rw [hindex, compiledGraph_reissued gen owner owner'] at hassembled'
  rw [hassembled']
  conv_rhs => rw [hcompiled.assembled]
  rfl

variable [Shown σ] [Shown α]

/-- What is compiled is compiled to the same system with a wider tolerance. -/
theorem compile_of_le {options options' : CompileOptions} (hvalid : options'.isValid = true)
    (hle : options.tolerance.le options'.tolerance = true) {owner : Identity}
    {t : TransitionSystem σ α} (hcompile : gen.compile options owner = .ok t) (owner' : Identity) :
    gen.compile options' owner' = .ok { t with graph := t.graph.reissued owner' } := by
  obtain ⟨hfew, hacceptable, hkeys, hcompiled⟩ := compiled_of_compile_eq_ok hcompile
  have hnone : gen.faults options' = [] :=
    (faults_eq_nil_iff options').2 (hacceptable.of_le hvalid hle)
  obtain ⟨t', ht'⟩ := gen.exists_compile_eq_ok options' owner' hfew hkeys hnone
  obtain ⟨-, -, -, hcompiled'⟩ := compiled_of_compile_eq_ok ht'
  rw [ht', hcompiled.eq_reissued hcompiled']

end Generator

/-! ## Two runs -/

namespace CompileOptions

/-- With a wider tolerance a generator that was compiled is compiled to the same graph, so
one that is refused was refused before, and a system that passed passes again. -/
theorem accepted_of_tolerance_le {options options' : CompileOptions}
    (hvalid : options'.isValid = true) (hle : options.tolerance.le options'.tolerance = true) :
    (∀ {σ α : Type} [DecidableEq σ] [ToValue σ] [ToValue α] [Shown σ] [Shown α]
        (gen : Generator σ α) (owner owner' : Identity),
      (∀ t, gen.compile options owner = .ok t →
        gen.compile options' owner' = .ok { t with graph := t.graph.reissued owner' }) ∧
      ∀ e', gen.compile options' owner' = .error e' → ∃ e, gen.compile options owner = .error e) ∧
    ∀ {σ α : Type} (t : TransitionSystem σ α),
      t.checkDistributions options = .ok () → t.checkDistributions options' = .ok () := by
  constructor
  · intro σ α _ _ _ _ _ gen owner owner'
    refine ⟨fun t ht => gen.compile_of_le hvalid hle ht owner', fun e' he' => ?_⟩
    cases hcompile : gen.compile options owner with
    | error e => exact ⟨e, rfl⟩
    | ok t =>
      rw [Generator.compile_of_le hvalid hle hcompile owner'] at he'
      cases he'
  · exact fun t hpasses => TransitionSystem.checkDistributions_of_le hvalid hle hpasses

/-- The sum of `0.7`, `0.2` and `0.1` is rounded to a number below 1. -/
def rounding : Generator String String where
  states := ["x", "y", "z"]
  actions := ["go"]
  delta := fun _ _ => .weighted
    [("x", ⟨0x3FE6666666666666⟩), ("y", ⟨0x3FC999999999999A⟩), ("z", ⟨0x3FB999999999999A⟩)]
  turnBased := false
  deterministic := false

/-- Refused with the tolerance 0, it is compiled and passes with `1e-9`, and so it does with
`0.5`. -/
theorem accepted_rounding :
    rounding.compile ⟨.zero⟩ ⟨0⟩ = .error (.refused
        (.invalidDistribution "\"x\"" "\"go\"" (.sum ⟨0x3FEFFFFFFFFFFFFF⟩))) ∧
      ∃ t, rounding.compile .standard ⟨0⟩ = .ok t ∧
      rounding.compile ⟨⟨0x3FE0000000000000⟩⟩ ⟨1⟩ = .ok { t with graph := t.graph.reissued ⟨1⟩ } ∧
      t.checkDistributions .standard = .ok () ∧
      t.checkDistributions ⟨⟨0x3FE0000000000000⟩⟩ = .ok () := by
  have hfew : rounding.states.length < 2 ^ 32 := by decide
  have hkeys : rounding.HasKeys := by decide
  obtain ⟨t, hcompile, hpasses⟩ : ∃ t, rounding.compile .standard ⟨0⟩ = .ok t ∧
      t.checkDistributions .standard = .ok () := exists_eq_ok_of_test (by decide +kernel)
  have hvalid : isValid ⟨⟨0x3FE0000000000000⟩⟩ = true := by decide
  have hle : (tolerance .standard).le (tolerance ⟨⟨0x3FE0000000000000⟩⟩) = true := by decide
  obtain ⟨hcompiles, hchecks⟩ := accepted_of_tolerance_le hvalid hle
  have hrefused : rounding.compile ⟨.zero⟩ ⟨0⟩ = .error (.refused
      (.invalidDistribution "\"x\"" "\"go\"" (.sum ⟨0x3FEFFFFFFFFFFFFF⟩))) :=
    (((Generator.settles_compile hfew ⟨.zero⟩ ⟨0⟩).settles (not_not_intro hkeys)).eq_error_iff _).2
      (by decide +kernel)
  exact ⟨hrefused, t, hcompile, (hcompiles rounding ⟨0⟩ ⟨1⟩).1 t hcompile, hpasses,
    hchecks t hpasses⟩

end CompileOptions

end StateGraph
