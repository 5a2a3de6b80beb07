import Mathlib.Data.List.Permutation
import StateGraph.Proofs.Binary64
import StateGraph.Proofs.Compilation.Navigation
import StateGraph.Proofs.Compilation.Reopening

set_option autoImplicit false

/-!
# Distributions are checked again

A compiler looks at each answer of a generator on its own, in the order of the answer.
A compiled system looks at the transitions of a node: they come target by target, and
those with one action value are taken together.  So what is checked again are the
answers regrouped (`Generator.regroupedProbabilities`).

If actions have different values, the same numbers are added, but perhaps in another
order, and sums are rounded.  If two actions have one value, their numbers are added
to each other, and the check fails.
-/

namespace StateGraph

theorem NodeSpan.forM_eq_forM_toList {ε : Type} (f : NodeId → Except ε Unit) (s : NodeSpan) :
    s.forM f = s.toList.forM f := by
  rw [NodeSpan.forM, foldlM_eq_foldlM_toList]
  induction s.toList with
  | nil => rfl
  | cons n l ih =>
    rw [List.foldlM_cons]
    show _ = f n >>= fun _ => l.forM f
    rw [← ih]

namespace TransitionSystem

variable {σ α : Type} {t : TransitionSystem σ α}

/-- The probabilities of the transitions with one action value, in order. -/
def probabilitiesOf (ts : List Transition) (v : Value) : List Binary64 :=
  (ts.filter fun t => decide (t.action = v)).map fun t => t.probability.getD .nan

/-- Actions come in the order of their first transitions. -/
theorem toList_probabilitiesByAction (ts : List Transition) :
    (probabilitiesByAction ts).toList =
      (arrivals (fun t : Transition => t.action) ts).map fun v => (v, probabilitiesOf ts v) :=
  OrderedMap.toList_foldl_upsert_concat (fun t : Transition => t.action)
    (fun t => t.probability.getD .nan) ts

theorem mem_probabilitiesByAction_iff (ts : List Transition) (v : Value) (ps : List Binary64) :
    (v, ps) ∈ (probabilitiesByAction ts).toList ↔
      v ∈ ts.map (·.action) ∧ ps = probabilitiesOf ts v := by
  rw [toList_probabilitiesByAction, List.mem_map]
  simp only [mem_arrivals_iff, Prod.mk.injEq, List.mem_map]
  constructor
  · rintro ⟨v, hv, rfl, rfl⟩
    exact ⟨hv, rfl⟩
  · rintro ⟨hv, rfl⟩
    exact ⟨v, hv, rfl, rfl⟩

theorem checkAction_eq_ok_iff (options : CompileOptions) (n : NodeId)
    (group : Value × List Binary64) :
    t.checkAction options n group = .ok () ↔
      Distribution.check group.2 options.tolerance = .ok () := by
  rw [checkAction]
  cases Distribution.check group.2 options.tolerance with
  | ok => exact iff_of_true rfl rfl
  | error fault => simp

/-- A node passes if each action value that occurs there has a distribution. -/
theorem checkNode_eq_ok_iff {options : CompileOptions} {n : NodeId} {ts : List Transition}
    (hts : t.transitions n = .ok ts) :
    t.checkNode options n = .ok () ↔ ∀ v ∈ ts.map (·.action),
      Distribution.check (probabilitiesOf ts v) options.tolerance = .ok () := by
  rw [checkNode, hts]
  show List.forM _ _ = _ ↔ _
  rw [forM_eq_ok_iff]
  constructor
  · intro hall v hv
    have hgroup := hall (v, probabilitiesOf ts v)
      ((mem_probabilitiesByAction_iff ts v _).2 ⟨hv, rfl⟩)
    exact (checkAction_eq_ok_iff options n _).1 hgroup
  · rintro hall ⟨v, ps⟩ hgroup
    obtain ⟨hv, rfl⟩ := (mem_probabilitiesByAction_iff ts v ps).1 hgroup
    exact (checkAction_eq_ok_iff options n _).2 (hall v hv)

/-- With valid options a system with distributions is checked node by node. -/
theorem checkDistributions_eq_forM {options : CompileOptions} (hvalid : options.isValid = true)
    (hweighted : t.branching = .quantitative) :
    t.checkDistributions options = t.graph.nodes.toList.forM (t.checkNode options) := by
  rw [checkDistributions, CompileOptions.validate, if_pos hvalid, ok_bind, hweighted,
    if_pos (show Branching.isWeighted .quantitative = true from rfl)]
  exact NodeSpan.forM_eq_forM_toList _ _

/-- A system with distributions passes if each of its nodes does. -/
theorem checkDistributions_eq_ok_iff {options : CompileOptions} (hvalid : options.isValid = true)
    (hweighted : t.branching = .quantitative) :
    t.checkDistributions options = .ok () ↔
      ∀ n ∈ t.graph.nodes.toList, t.checkNode options n = .ok () := by
  rw [checkDistributions_eq_forM hvalid hweighted, forM_eq_ok_iff]

/-- Options are looked at first. -/
theorem isValid_of_checkDistributions {options : CompileOptions}
    (hpasses : t.checkDistributions options = .ok ()) : options.isValid = true := by
  obtain ⟨⟨⟩, hoptions, -⟩ := bind_eq_ok_iff.1 hpasses
  by_contra hinvalid
  rw [CompileOptions.validate, if_neg hinvalid] at hoptions
  cases hoptions

/-- In a system without distributions only the options can be wrong. -/
theorem checkDistributions_of_unweighted (hunweighted : t.branching ≠ .quantitative)
    (options : CompileOptions) : t.checkDistributions options = options.validate := by
  have hweighted : t.branching.isWeighted = false := by
    cases hbranching : t.branching with
    | deterministic => rfl
    | qualitative => rfl
    | quantitative => exact absurd hbranching hunweighted
  rw [checkDistributions, hweighted]
  cases options.validate <;> rfl

end TransitionSystem

/-- A distribution has at least one probability. -/
theorem Distribution.ne_nil_of_check {ps : List Binary64} {tolerance : Binary64}
    (hcheck : check ps tolerance = .ok ()) : ps ≠ [] := by
  rintro rfl
  cases hcheck

/-- If each element has a result, none is passed over. -/
theorem filterMap_eq_map_getD {β γ : Type} {f : β → Option γ} (default : γ) {l : List β}
    (hall : ∀ b ∈ l, ∃ c, f b = some c) : l.filterMap f = l.map fun b => (f b).getD default := by
  induction l with
  | nil => rfl
  | cons b l ih =>
    rw [List.forall_mem_cons] at hall
    obtain ⟨⟨c, hc⟩, hrest⟩ := hall
    rw [List.filterMap_cons_some hc, List.map_cons, ih hrest, hc, Option.getD_some]

namespace Generator

variable {σ α : Type} [DecidableEq σ] [ToValue α] {gen : Generator σ α} {options : CompileOptions}

/-! ## Probabilities as they are regrouped -/

/-- The probabilities of the outcomes of a state with one action value, target by target. -/
def regroupedProbabilities (gen : Generator σ α) (s : σ) (v : Value) : List Binary64 :=
  ((regroup (fun o => o.2.1) (gen.outcomes s)).filter fun o => decide (toValue o.1 = v)).filterMap
    fun o => o.2.2

/-- With distributions, every action has outcomes. -/
theorem Acceptable.mem_action_iff (hacceptable : gen.Acceptable options)
    (hweighted : gen.branching = .quantitative) (index : OrderedMap σ NodeId) {s : σ}
    (hs : s ∈ gen.states) (v : Value) :
    v ∈ (gen.transitionsOf index s).map (·.action) ↔ ∃ a ∈ gen.actions, toValue a = v := by
  rw [mem_action_transitionsOf_iff]
  constructor
  · rintro ⟨o, ho, rfl⟩
    exact ⟨o.1, ((mem_outcomes_iff s o).1 ho).1, rfl⟩
  · rintro ⟨a, ha, rfl⟩
    have hshape := hacceptable.shapes s hs a ha
    rw [hweighted] at hshape
    cases hanswer : gen.delta s a with
    | single s' => simp [hanswer, Successors.shape, expectedShape] at hshape
    | choice ss => simp [hanswer, Successors.shape, expectedShape] at hshape
    | weighted ps =>
      have hsome := Distribution.ne_nil_of_check (hacceptable.distributions s hs a ha ps hanswer)
      obtain ⟨entry, hentry⟩ := List.exists_mem_of_ne_nil ps (by simpa using hsome)
      refine ⟨(a, entry.1, some entry.2), (mem_outcomes_iff s _).2 ⟨ha, ?_⟩, rfl⟩
      rw [hanswer]
      exact List.mem_map_of_mem hentry

/-- The probabilities of transitions are those of outcomes. -/
theorem Acceptable.probabilitiesOf_transitionsOf (hacceptable : gen.Acceptable options)
    (hweighted : gen.branching = .quantitative) (index : OrderedMap σ NodeId) {s : σ}
    (hs : s ∈ gen.states) (v : Value) :
    TransitionSystem.probabilitiesOf (gen.transitionsOf index s) v =
      gen.regroupedProbabilities s v := by
  have hsplit : TransitionSystem.probabilitiesOf (gen.transitionsOf index s) v =
      (((gen.transitionsOf index s).map fun t => (t.action, t.probability)).filter
        fun e => decide (e.1 = v)).map fun e => e.2.getD .nan := by
    rw [List.filter_map, List.map_map]
    rfl
  rw [hsplit, map_transitionsOf, List.filter_map, List.map_map, regroupedProbabilities]
  refine (filterMap_eq_map_getD Binary64.nan fun o ho => ?_).symm
  have hmem := (perm_regroup _ _).mem_iff.1 (List.mem_filter.1 ho).1
  exact hacceptable.exists_probability hweighted hs hmem

/-! ## Compiled systems -/

section Compiled

variable [ToValue σ] {owner : Identity} {t : TransitionSystem σ α}

omit [ToValue α] in
/-- The nodes are those of the states. -/
theorem Compiled.mem_nodes_iff [ToValue α] (hcompiled : gen.Compiled owner t)
    (hfew : gen.states.length < 2 ^ 32) (n : NodeId) :
    n ∈ t.graph.nodes.toList ↔ ∃ s ∈ gen.states, nodeIn t.states s = n := by
  rw [hcompiled.toList_nodes hfew, ← hcompiled.states, List.mem_map]
  constructor
  · rintro ⟨⟨s, n⟩, hmem, rfl⟩
    exact ⟨s, mem_states_of_nodeOf? hcompiled.states ((OrderedMap.get?_eq_some_iff _ s n).2 hmem)⟩
  · rintro ⟨s, hs, rfl⟩
    exact ⟨(s, nodeIn t.states s),
      (OrderedMap.get?_eq_some_iff _ s _).1 (hcompiled.nodeOf?_eq hs), rfl⟩

/-- A compiled system passes if the probabilities of each state and action are a
distribution as they are regrouped. -/
theorem Compiled.checkDistributions_eq_ok_iff (hcompiled : gen.Compiled owner t)
    (hacceptable : gen.Acceptable options) (hfew : gen.states.length < 2 ^ 32)
    (hkeys : gen.HasKeys) (hweighted : gen.branching = .quantitative) :
    t.checkDistributions options = .ok () ↔ ∀ s ∈ gen.states, ∀ a ∈ gen.actions,
      Distribution.check (gen.regroupedProbabilities s (toValue a)) options.tolerance = .ok () := by
  have hbranching : t.branching = .quantitative :=
    (congrArg TransitionSystem.branching hcompiled.assembled).trans hweighted
  have hnode : ∀ s ∈ gen.states, t.checkNode options (nodeIn t.states s) = .ok () ↔
      ∀ a ∈ gen.actions,
        Distribution.check (gen.regroupedProbabilities s (toValue a)) options.tolerance =
          .ok () := by
    intro s hs
    rw [TransitionSystem.checkNode_eq_ok_iff (hcompiled.transitions_eq hacceptable hfew hkeys hs)]
    simp only [hacceptable.mem_action_iff hweighted t.states hs,
      hacceptable.probabilitiesOf_transitionsOf hweighted t.states hs]
    constructor
    · exact fun hall a ha => hall (toValue a) ⟨a, ha, rfl⟩
    · rintro hall _ ⟨a, ha, rfl⟩
      exact hall a ha
  rw [TransitionSystem.checkDistributions_eq_ok_iff hacceptable.tolerance hbranching]
  constructor
  · intro hall s hs
    exact (hnode s hs).1 (hall _ ((hcompiled.mem_nodes_iff hfew _).2 ⟨s, hs, rfl⟩))
  · intro hall n hn
    obtain ⟨s, hs, rfl⟩ := (hcompiled.mem_nodes_iff hfew n).1 hn
    exact (hnode s hs).2 (hall s hs)

end Compiled

/-! ## Regrouped answers -/

/-- The probabilities of an answer. -/
def answerProbabilities (gen : Generator σ α) (s : σ) (a : α) : List Binary64 :=
  (gen.delta s a).toList.filterMap Prod.snd

/-- The targets of an answer come in the order in which they arrive in the whole state. -/
def InOrder (gen : Generator σ α) (s : σ) (a : α) : Prop :=
  (gen.delta s a).toList.Pairwise fun t u =>
    (gen.targetsOf s).idxOf t.1 ≤ (gen.targetsOf s).idxOf u.1

instance (s : σ) (a : α) : Decidable (gen.InOrder s a) :=
  inferInstanceAs (Decidable (List.Pairwise _ _))

omit [DecidableEq σ] in
/-- If actions have different values, the outcomes with the value of an action are its
answer. -/
theorem filter_action_outcomes (hdistinct : (gen.actions.map toValue).Nodup) (s : σ) {a : α}
    (ha : a ∈ gen.actions) :
    (gen.outcomes s).filter (fun o => decide (toValue o.1 = toValue a)) =
      (gen.delta s a).toList.map fun t => (a, t) := by
  rw [outcomes, List.filter_flatMap, flatMap_eq_of_unique hdistinct.of_map ha]
  · refine List.filter_eq_self.2 fun o ho => ?_
    obtain ⟨t, -, rfl⟩ := List.mem_map.1 ho
    exact decide_eq_true rfl
  · intro a' ha' hne
    rw [List.filter_eq_nil_iff]
    intro o ho heq
    obtain ⟨t, -, rfl⟩ := List.mem_map.1 ho
    exact hne (List.inj_on_of_nodup_map hdistinct ha' ha (of_decide_eq_true heq))

omit [DecidableEq σ] [ToValue α] in
theorem map_snd_filter_action (s : σ) (a : α) :
    ((gen.delta s a).toList.map fun t => (a, t)).filterMap (fun o => o.2.2) =
      gen.answerProbabilities s a := by
  rw [List.filterMap_map]
  rfl

/-- If actions have different values, regrouping an answer changes at most its order. -/
theorem perm_regroupedProbabilities (hdistinct : (gen.actions.map toValue).Nodup) (s : σ) {a : α}
    (ha : a ∈ gen.actions) :
    (gen.regroupedProbabilities s (toValue a)).Perm (gen.answerProbabilities s a) := by
  rw [← map_snd_filter_action, ← filter_action_outcomes hdistinct s ha, regroupedProbabilities]
  exact ((perm_regroup _ _).filter _).filterMap _

/-- An answer in order is not changed. -/
theorem InOrder.regroupedProbabilities_eq (hdistinct : (gen.actions.map toValue).Nodup)
    {s : σ} {a : α} (ha : a ∈ gen.actions) (horder : gen.InOrder s a) :
    gen.regroupedProbabilities s (toValue a) = gen.answerProbabilities s a := by
  have hcover : ∀ o ∈ (gen.delta s a).toList.map fun t => (a, t), o.2.1 ∈ gen.targetsOf s := by
    intro o ho
    rw [← filter_action_outcomes hdistinct s ha] at ho
    exact (mem_targetsOf_iff s _).2 ⟨o, (List.mem_filter.1 ho).1, rfl⟩
  rw [regroupedProbabilities, filter_regroup, filter_action_outcomes hdistinct s ha]
  have hsorted : ((gen.delta s a).toList.map fun t => (a, t)).Pairwise fun o u =>
      (gen.targetsOf s).idxOf o.2.1 ≤ (gen.targetsOf s).idxOf u.2.1 := List.pairwise_map.2 horder
  have hsame := flatMap_filter_eq_self (nodup_arrivals _ (gen.outcomes s)) hcover hsorted
  rw [← map_snd_filter_action]
  exact congrArg (List.filterMap fun o => o.2.2) hsame

omit [DecidableEq σ] [ToValue α] in
/-- An accepted answer is a distribution. -/
theorem Acceptable.check_answerProbabilities (hacceptable : gen.Acceptable options)
    (hweighted : gen.branching = .quantitative) {s : σ} (hs : s ∈ gen.states) {a : α}
    (ha : a ∈ gen.actions) :
    Distribution.check (gen.answerProbabilities s a) options.tolerance = .ok () := by
  have hshape := hacceptable.shapes s hs a ha
  rw [hweighted] at hshape
  cases hanswer : gen.delta s a with
  | single s' => simp [hanswer, Successors.shape, expectedShape] at hshape
  | choice ss => simp [hanswer, Successors.shape, expectedShape] at hshape
  | weighted ps =>
    have hprobabilities : gen.answerProbabilities s a = ps.map Prod.snd := by
      rw [answerProbabilities, hanswer, Successors.toList, List.filterMap_map]
      exact List.filterMap_eq_map' ▸ rfl
    rw [hprobabilities]
    exact hacceptable.distributions s hs a ha ps hanswer

end Generator

/-- Two probabilities are a distribution in either order. -/
theorem Distribution.check_pair_comm {p q tolerance : Binary64}
    (hcheck : check [p, q] tolerance = .ok ()) :
    check [q, p] tolerance = .ok () := by
  have hp : isProbability p = true := isProbability_of_check hcheck (by simp)
  have hq : isProbability q = true := isProbability_of_check hcheck (by simp)
  have hsum : sumFrom .zero [q, p] = sumFrom .zero [p, q] := by
    simp only [sumFrom, hp, hq, if_true]
    rw [Binary64.zero_add_add_comm q p]
  unfold check at hcheck ⊢
  rw [hsum]
  exact hcheck

/-- At most two probabilities are a distribution in any order. -/
theorem Distribution.check_of_perm {ps qs : List Binary64} {tolerance : Binary64}
    (hperm : ps.Perm qs) (hfew : qs.length ≤ 2) (hcheck : check qs tolerance = .ok ()) :
    check ps tolerance = .ok () := by
  match qs with
  | [] => exact absurd rfl (ne_nil_of_check hcheck)
  | [q] =>
    rw [List.perm_singleton.1 hperm]
    exact hcheck
  | [p, q] =>
    rcases List.perm_pair.1 hperm with rfl | rfl
    · exact hcheck
    · exact check_pair_comm hcheck
  | _ :: _ :: _ :: _ => simp at hfew

namespace Generator

open TransitionSystem

variable {σ α : Type} [DecidableEq σ] [ToValue σ] [ToValue α] [Shown σ] [Shown α]
  {gen : Generator σ α} {options : CompileOptions} {owner : Identity} {t : TransitionSystem σ α}

/-- A compiled system is reopened, and checked again with the same outcome. -/
theorem exists_reopened (hinjective : Function.Injective (toValue : σ → Value))
    (hcompile : gen.compile options owner = .ok t) (options' : CompileOptions) :
    ∃ r, ofGraph t.graph = .ok r ∧
      r.checkDistributions options' = t.checkDistributions options' := by
  obtain ⟨hfew, -, -, hcompiled⟩ := compiled_of_compile_eq_ok hcompile
  obtain ⟨r, hopened, hreopens⟩ := hcompiled.reopens hfew hinjective (.refl _)
  exact ⟨r, hopened, hreopens.checkDistributions options'⟩

/-- A compiled system with distributions passes exactly if the regrouped answers are
distributions, and so it does after it has been reopened.  If actions have different
values, these are the answers in another order; the order does not matter for answers
that are in order, and for two probabilities. -/
theorem rechecks_of_compile_eq_ok (hinjective : Function.Injective (toValue : σ → Value))
    (hweighted : gen.branching = .quantitative) (hcompile : gen.compile options owner = .ok t) :
    (t.checkDistributions options = .ok () ↔ ∀ s ∈ gen.states, ∀ a ∈ gen.actions,
        Distribution.check (gen.regroupedProbabilities s (toValue a)) options.tolerance = .ok ()) ∧
      ((gen.actions.map toValue).Nodup →
        (∀ s ∈ gen.states, ∀ a ∈ gen.actions,
          (gen.regroupedProbabilities s (toValue a)).Perm (gen.answerProbabilities s a)) ∧
        ((∀ s ∈ gen.states, ∀ a ∈ gen.actions,
            gen.InOrder s a ∨ (gen.answerProbabilities s a).length ≤ 2) →
          t.checkDistributions options = .ok ())) ∧
      ∃ r, ofGraph t.graph = .ok r ∧
        r.checkDistributions options = t.checkDistributions options := by
  obtain ⟨hfew, hacceptable, hkeys, hcompiled⟩ := compiled_of_compile_eq_ok hcompile
  have hiff := hcompiled.checkDistributions_eq_ok_iff hacceptable hfew hkeys hweighted
  refine ⟨hiff, fun hdistinct => ⟨fun s _ a ha => perm_regroupedProbabilities hdistinct s ha, ?_⟩,
    exists_reopened hinjective hcompile options⟩
  intro hall
  rw [hiff]
  intro s hs a ha
  have hanswer := hacceptable.check_answerProbabilities hweighted hs ha
  rcases hall s hs a ha with horder | hpair
  · rwa [horder.regroupedProbabilities_eq hdistinct ha]
  · exact Distribution.check_of_perm (perm_regroupedProbabilities hdistinct s ha) hpair hanswer

/-- An answer in order, and one of two probabilities that is not. -/
def turning : Generator String String where
  states := ["x", "y", "z"]
  actions := ["spread", "turn"]
  delta := fun _ a => .weighted (if a = "spread"
    then [("x", ⟨0x3FE0000000000000⟩), ("y", ⟨0x3FD0000000000000⟩), ("z", ⟨0x3FD0000000000000⟩)]
    else [("z", ⟨0x3FE0000000000000⟩), ("x", ⟨0x3FE0000000000000⟩)])
  turnBased := false
  deterministic := false

example : turning.InOrder "x" "spread" ∧ ¬ turning.InOrder "x" "turn" := by decide

theorem rechecks_turning :
    ∃ t, turning.compile .standard ⟨0⟩ = .ok t ∧ t.checkDistributions .standard = .ok () ∧
      ∃ r, ofGraph t.graph = .ok r ∧ r.checkDistributions .standard = .ok () := by
  obtain ⟨t, hcompile⟩ := exists_compile_eq_ok turning .standard ⟨0⟩ (by decide) (by decide)
    (by decide +kernel)
  obtain ⟨-, hdistinct, r, hopened, hsame⟩ := rechecks_of_compile_eq_ok (fun _ _ => Value.text.inj)
    rfl hcompile
  have hpasses := (hdistinct (by decide)).2 (by decide)
  exact ⟨t, hcompile, hpasses, r, hopened, hsame.trans hpasses⟩

/-- One action that is listed twice. -/
def repeating : Generator String String where
  states := ["x"]
  actions := ["go", "go"]
  delta := fun s _ => .weighted [(s, .one)]
  turnBased := false
  deterministic := false

/-- Two different actions, the second of which names the states in another order: `0.1`,
`0.2` and `0.7` add up to 1, but `0.7`, `0.2` and `0.1` do not. -/
def reordered : Generator String String where
  states := ["x", "y", "z"]
  actions := ["first", "second"]
  delta := fun _ a => .weighted (if a = "first"
    then [("x", ⟨0x3FE0000000000000⟩), ("y", ⟨0x3FD0000000000000⟩), ("z", ⟨0x3FD0000000000000⟩)]
    else [("z", ⟨0x3FB999999999999A⟩), ("y", ⟨0x3FC999999999999A⟩), ("x", ⟨0x3FE6666666666666⟩)])
  turnBased := false
  deterministic := false

/-- Both are compiled, and both are refused when they are checked again. -/
theorem not_rechecks_repeating_reordered :
    (∃ t, repeating.compile .standard ⟨0⟩ = .ok t ∧ t.checkDistributions .standard ≠ .ok () ∧
        ∃ r, ofGraph t.graph = .ok r ∧ r.checkDistributions .standard ≠ .ok ()) ∧
      ∃ t, reordered.compile ⟨.zero⟩ ⟨0⟩ = .ok t ∧ t.checkDistributions ⟨.zero⟩ ≠ .ok () ∧
        ∃ r, ofGraph t.graph = .ok r ∧ r.checkDistributions ⟨.zero⟩ ≠ .ok () := by
  have hinjective : Function.Injective (toValue : String → Value) := fun _ _ => Value.text.inj
  have hrepeating : ∃ t, repeating.compile .standard ⟨0⟩ = .ok t ∧
      t.checkDistributions .standard ≠ .ok () := exists_eq_ok_of_test (by decide +kernel)
  have hreordered : ∃ t, reordered.compile ⟨.zero⟩ ⟨0⟩ = .ok t ∧
      t.checkDistributions ⟨.zero⟩ ≠ .ok () := exists_eq_ok_of_test (by decide +kernel)
  constructor
  · obtain ⟨t, hcompile, hrefused⟩ := hrepeating
    obtain ⟨r, hopened, hsame⟩ := exists_reopened hinjective hcompile .standard
    exact ⟨t, hcompile, hrefused, r, hopened, hsame ▸ hrefused⟩
  · obtain ⟨t, hcompile, hrefused⟩ := hreordered
    obtain ⟨r, hopened, hsame⟩ := exists_reopened hinjective hcompile ⟨.zero⟩
    exact ⟨t, hcompile, hrefused, r, hopened, hsame ▸ hrefused⟩

end Generator

end StateGraph
