import StateGraph.Proofs.Compilation.Transitions
import StateGraph.Proofs.Regrouping

set_option autoImplicit false

/-!
# Keys for all transitions

The edges of all states and actions are added one after another
(`Generator.settles_addTransitions`).  This overflows where a pair of nodes gets more
edges than there are keys, and such a pair is that of two states: an answer is added
only when all of its successors are known to be states.  So a compilation can overflow
only if some state has more outcomes that lead to one and the same state than there are
keys (`Generator.HasKeys`).

What has been added at any time is a beginning of the transition relation
(`Generator.Reached`), and has no more edges of a pair than the whole of it.
-/

namespace StateGraph.Generator

variable {σ α : Type} [DecidableEq σ] {gen : Generator σ α} {index : OrderedMap σ NodeId}

/-! ## Nodes of states -/

/-- A state has the node of its position. -/
theorem exists_position (hindex : index.toList = numbered gen.states) {s : σ}
    (hs : s ∈ gen.states) :
    ∃ i : Nat, gen.states[i]? = some s ∧ index.get? s = some (nodeIn index s) ∧
      nodeIn index s = ⟨i.toUInt32⟩ := by
  rw [← keys_eq_of_numbered hindex, ← OrderedMap.get?_isSome_iff] at hs
  obtain ⟨n, hn⟩ := Option.isSome_iff_exists.1 hs
  obtain ⟨i, hi, rfl⟩ := (get?_index_iff hindex s n).1 hn
  have hnode : nodeIn index s = ⟨i.toUInt32⟩ := by rw [nodeIn, hn, Option.getD_some]
  exact ⟨i, hi, hnode ▸ hn, hnode⟩

/-- Different states have different nodes. -/
theorem nodeIn_inj (hindex : index.toList = numbered gen.states)
    (hfew : gen.states.length < 2 ^ 32) {s s' : σ} (hs : s ∈ gen.states) (hs' : s' ∈ gen.states)
    (heq : nodeIn index s = nodeIn index s') : s = s' := by
  obtain ⟨i, hi, -, hnode⟩ := exists_position hindex hs
  obtain ⟨j, hj, -, hnode'⟩ := exists_position hindex hs'
  obtain ⟨hilt, -⟩ := List.getElem?_eq_some_iff.1 hi
  obtain ⟨hjlt, -⟩ := List.getElem?_eq_some_iff.1 hj
  rw [hnode, hnode'] at heq
  have hindexes : i = j :=
    toUInt32_inj (Nat.lt_trans hilt hfew) (Nat.lt_trans hjlt hfew) (congrArg NodeId.index heq)
  rw [hindexes, hj] at hi
  exact (Option.some.inj hi).symm

/-! ## The transition relation -/

omit [DecidableEq σ] in
/-- The transitions of an answer: where from, with which action, where to and how likely. -/
def answered (gen : Generator σ α) (s : σ) (a : α) : List (σ × α × σ × Option Binary64) :=
  (gen.delta s a).toList.map fun t => (s, a, t)

omit [DecidableEq σ] in
/-- All transitions, in the order in which they are added. -/
def relation (gen : Generator σ α) : List (σ × α × σ × Option Binary64) :=
  gen.states.flatMap fun s => gen.actions.flatMap (gen.answered s)

omit [DecidableEq σ] in
theorem flatMap_answered (gen : Generator σ α) (s : σ) :
    gen.actions.flatMap (gen.answered s) = (gen.outcomes s).map (Prod.mk s) := by
  rw [outcomes, List.map_flatMap]
  simp only [List.map_map]
  rfl

omit [DecidableEq σ] in
theorem mem_states_of_mem_relation {r : σ × α × σ × Option Binary64} (hr : r ∈ gen.relation) :
    r.1 ∈ gen.states := by
  obtain ⟨s, hs, hr⟩ := List.mem_flatMap.1 hr
  rw [flatMap_answered] at hr
  obtain ⟨o, -, rfl⟩ := List.mem_map.1 hr
  exact hs

/-- The transitions from one state to another are the outcomes that lead from the one to the
other. -/
theorem filter_relation (hdistinct : gen.states.Nodup) {s : σ} (hs : s ∈ gen.states) (s' : σ) :
    gen.relation.filter (fun r => decide (r.1 = s ∧ r.2.2.1 = s')) =
      (gen.outcomesTo s s').map (Prod.mk s) := by
  have hself : (gen.actions.flatMap (gen.answered s)).filter
      (fun r => decide (r.1 = s ∧ r.2.2.1 = s')) = (gen.outcomesTo s s').map (Prod.mk s) := by
    rw [flatMap_answered, List.filter_map, outcomesTo]
    simp [Function.comp_def]
  rw [relation, List.filter_flatMap, ← hself]
  refine flatMap_eq_of_unique hdistinct hs fun s₁ _ hne => ?_
  rw [flatMap_answered, List.filter_eq_nil_iff]
  rintro r hr
  obtain ⟨o, -, rfl⟩ := List.mem_map.1 hr
  simp [hne]

/-- There is a key for every transition: no more of them lead from one state to another than
there are keys. -/
def HasKeys (gen : Generator σ α) : Prop :=
  ∀ s ∈ gen.states, ∀ s' ∈ gen.states, (gen.outcomesTo s s').length ≤ 2 ^ 32

instance (gen : Generator σ α) : Decidable gen.HasKeys :=
  inferInstanceAs (Decidable (∀ s ∈ gen.states, ∀ s' ∈ gen.states,
    (gen.outcomesTo s s').length ≤ 2 ^ 32))

section Edges

variable [ToValue α]

/-- The edge of a transition. -/
def edgeOf (gen : Generator σ α) (index : OrderedMap σ NodeId)
    (r : σ × α × σ × Option Binary64) : NewEdge :=
  gen.newEdge index r.1 r.2

theorem map_edgeOf_relation (gen : Generator σ α) (index : OrderedMap σ NodeId) :
    gen.relation.map (gen.edgeOf index) = gen.newEdges index := by
  rw [relation, newEdges, List.map_flatMap]
  simp only [flatMap_answered, List.map_map]
  rfl

/-- Between states, the edges of a pair are the transitions from the one state to the other. -/
theorem filter_joins (hindex : index.toList = numbered gen.states)
    (hfew : gen.states.length < 2 ^ 32) {s s' : σ} (hs : s ∈ gen.states) (hs' : s' ∈ gen.states)
    {l : List (σ × α × σ × Option Binary64)}
    (hl : ∀ r ∈ l, r.1 ∈ gen.states ∧ r.2.2.1 ∈ gen.states) :
    (l.map (gen.edgeOf index)).filter (NewEdge.joins (nodeIn index s) (nodeIn index s')) =
      (l.filter fun r => decide (r.1 = s ∧ r.2.2.1 = s')).map (gen.edgeOf index) := by
  rw [List.filter_map]
  congr 1
  refine List.filter_congr fun r hr => decide_eq_decide.2 ⟨fun h => ?_, fun h => ?_⟩
  · obtain ⟨hsource, htarget⟩ := hl r hr
    exact ⟨nodeIn_inj hindex hfew hsource hs h.1, nodeIn_inj hindex hfew htarget hs' h.2⟩
  · exact ⟨congrArg (nodeIn index) h.1, congrArg (nodeIn index) h.2⟩

/-- A pair that edges of transitions join is that of the states of one of them. -/
theorem exists_of_joins {l : List (σ × α × σ × Option Binary64)} {u v : NodeId}
    (hjoined : 0 < ((l.map (gen.edgeOf index)).filter (NewEdge.joins u v)).length) :
    ∃ r ∈ l, nodeIn index r.1 = u ∧ nodeIn index r.2.2.1 = v := by
  obtain ⟨d, hd⟩ := List.exists_mem_of_length_pos hjoined
  obtain ⟨hmem, hjoins⟩ := List.mem_filter.1 hd
  obtain ⟨r, hr, rfl⟩ := List.mem_map.1 hmem
  exact ⟨r, hr, of_decide_eq_true hjoins⟩

/-- With keys for all transitions there is room for a beginning of them between states. -/
theorem HasKeys.roomFor (hkeys : gen.HasKeys) (hdistinct : gen.states.Nodup)
    (hindex : index.toList = numbered gen.states) (hfew : gen.states.length < 2 ^ 32)
    {start : Graph} (hstart : ∀ u v, start.adjacency.keyCount u v = 0)
    {done : List (σ × α × σ × Option Binary64)} (hbegins : done <+: gen.relation)
    (hdeclared : ∀ r ∈ done, r.2.2.1 ∈ gen.states) :
    start.RoomFor (done.map (gen.edgeOf index)) := by
  have hl : ∀ r ∈ done, r.1 ∈ gen.states ∧ r.2.2.1 ∈ gen.states := fun r hr =>
    ⟨mem_states_of_mem_relation (hbegins.subset hr), hdeclared r hr⟩
  intro u v
  rw [hstart, Nat.zero_add]
  rcases Nat.eq_zero_or_pos ((done.map (gen.edgeOf index)).filter (NewEdge.joins u v)).length
    with hzero | hjoined
  · rw [hzero]
    exact Nat.zero_le _
  · obtain ⟨r, hr, rfl, rfl⟩ := exists_of_joins hjoined
    obtain ⟨hsource, htarget⟩ := hl r hr
    rw [filter_joins hindex hfew hsource htarget hl, List.length_map]
    have hless :=
      (hbegins.sublist.filter fun r' => decide (r'.1 = r.1 ∧ r'.2.2.1 = r.2.2.1)).length_le
    rw [filter_relation hdistinct hsource, List.length_map] at hless
    exact Nat.le_trans hless (hkeys r.1 hsource r.2.2.1 htarget)

/-- Where there is room for all transitions, there are keys for them. -/
theorem hasKeys_of_roomFor (hdistinct : gen.states.Nodup)
    (hindex : index.toList = numbered gen.states) (hfew : gen.states.length < 2 ^ 32)
    {start : Graph} (hdeclared : ∀ r ∈ gen.relation, r.2.2.1 ∈ gen.states)
    (hroom : start.RoomFor (gen.relation.map (gen.edgeOf index))) : gen.HasKeys := by
  intro s hs s' hs'
  have hpair := hroom (nodeIn index s) (nodeIn index s')
  rw [filter_joins hindex hfew hs hs' fun r hr => ⟨mem_states_of_mem_relation hr, hdeclared r hr⟩,
    filter_relation hdistinct hs, List.length_map, List.length_map] at hpair
  omega

/-! ## Adding transitions -/

/-- The first transitions have been added, all of them between states. -/
structure Reached (gen : Generator σ α) (index : OrderedMap σ NodeId) (start : Graph)
    (done : List (σ × α × σ × Option Binary64)) (g : Graph) : Prop where
  begins : done <+: gen.relation
  declared : ∀ r ∈ done, r.2.2.1 ∈ gen.states
  room : start.RoomFor (done.map (gen.edgeOf index))
  graph : g = start.withEdges (done.map (gen.edgeOf index))

/-- A beginning of the transitions, all of them between states, has no room. -/
def Crowded (gen : Generator σ α) (index : OrderedMap σ NodeId) (start : Graph) : Prop :=
  ∃ done, done <+: gen.relation ∧ (∀ r ∈ done, r.2.2.1 ∈ gen.states) ∧
    ¬ start.RoomFor (done.map (gen.edgeOf index))

variable {start g : Graph} {done : List (σ × α × σ × Option Binary64)} {handles : SchemaHandles}

omit [DecidableEq σ] [ToValue α] in
theorem declared_append {r : σ × α × σ × Option Binary64}
    (hdeclared : ∀ r ∈ done, r.2.2.1 ∈ gen.states) (hr : r.2.2.1 ∈ gen.states) :
    ∀ r' ∈ done ++ [r], r'.2.2.1 ∈ gen.states := by
  intro r' hr'
  rcases List.mem_append.1 hr' with hold | hnew
  · exact hdeclared r' hold
  · rwa [List.mem_singleton.1 hnew]

theorem roomFor_concat_iff (gen : Generator σ α) (index : OrderedMap σ NodeId) (start : Graph)
    (done : List (σ × α × σ × Option Binary64)) (r : σ × α × σ × Option Binary64) :
    start.RoomFor ((done ++ [r]).map (gen.edgeOf index)) ↔
      start.RoomFor (done.map (gen.edgeOf index)) ∧
        (start.withEdges (done.map (gen.edgeOf index))).adjacency.isFull
          (nodeIn index r.1) (nodeIn index r.2.2.1) = false := by
  rw [List.map_append, Graph.roomFor_append_iff, List.map_singleton, Graph.roomFor_cons_iff,
    and_iff_left (Graph.roomFor_nil _)]
  rfl

/-- A transition for which its pair has a key left is added. -/
theorem Reached.concat (hreached : gen.Reached index start done g)
    {r : σ × α × σ × Option Binary64} (hbegins : done ++ [r] <+: gen.relation)
    (hr : r.2.2.1 ∈ gen.states)
    (hfull : g.adjacency.isFull (nodeIn index r.1) (nodeIn index r.2.2.1) = false) :
    gen.Reached index start (done ++ [r]) (g.withEdge (gen.edgeOf index r)) where
  begins := hbegins
  declared := declared_append hreached.declared hr
  room := (roomFor_concat_iff gen index start done r).2
    ⟨hreached.room, by rwa [← hreached.graph]⟩
  graph := by
    rw [List.map_append, Graph.withEdges_append, ← hreached.graph]
    rfl

/-- If the pair of a transition has no key left, the transitions up to it have no room. -/
theorem Reached.crowded (hreached : gen.Reached index start done g)
    {r : σ × α × σ × Option Binary64} (hbegins : done ++ [r] <+: gen.relation)
    (hr : r.2.2.1 ∈ gen.states)
    (hfull : g.adjacency.isFull (nodeIn index r.1) (nodeIn index r.2.2.1) = true) :
    gen.Crowded index start := by
  refine ⟨done ++ [r], hbegins, declared_append hreached.declared hr, fun hroom => ?_⟩
  have hfree := ((roomFor_concat_iff gen index start done r).1 hroom).2
  rw [← hreached.graph, hfull] at hfree
  cases hfree

/-- The successors of an answer, which are states, become edges one after another. -/
theorem settles_foldlM_addTransition (hready : gen.Ready handles index start)
    (hkeys : index.keys = gen.states) {s : σ} (hs : s ∈ gen.states) (a : α)
    (ts : List (σ × Option Binary64)) (hts : ∀ t ∈ ts, t.1 ∈ gen.states)
    (hbegins : done ++ ts.map (fun t => (s, a, t)) <+: gen.relation)
    (hreached : gen.Reached index start done g) :
    SettlesUnless (gen.Crowded index start)
      ((ts.map fun t => (t.1, t.2, nodeIn index t.1)).foldlM
        (gen.addTransition gen.schema handles (nodeIn index s) s a) g)
      [] (gen.Reached index start (done ++ ts.map fun t => (s, a, t))) := by
  induction ts generalizing done g with
  | nil => exact settlesUnless_ok (by rwa [List.map_nil, List.append_nil])
  | cons t ts ih =>
    have ht := hts t List.mem_cons_self
    rw [List.map_cons, List.append_cons] at hbegins
    have hfirst : done ++ [(s, a, t)] <+: gen.relation := (List.prefix_append _ _).trans hbegins
    have hready' : gen.Ready handles index g := hreached.graph ▸ hready.withEdges _
    have hadd := addTransition_eq hready'.installed (hready'.nodes s (hkeys ▸ hs))
      (hready'.nodes t.1 (hkeys ▸ ht)) s a t
    rw [List.map_cons, List.foldlM_cons, hadd, List.map_cons, List.append_cons]
    cases hfull : g.adjacency.isFull (nodeIn index s) (nodeIn index t.1) with
    | true => exact .inl ⟨rfl, hreached.crowded hfirst ht hfull⟩
    | false =>
      exact ih (fun t' ht' => hts t' (List.mem_cons_of_mem t ht')) hbegins
        (hreached.concat hfirst ht hfull)

variable [Shown σ] [Shown α]

omit [ToValue α] in
/-- What is wrong with a state and an action: first the answer itself, then its
successors. -/
def pairFaults (gen : Generator σ α) (options : CompileOptions) (s : σ) (a : α) :
    List CompileError :=
  gen.answerFaults options s a ++
    (gen.delta s a).toList.flatMap (successorFaults gen.states s a)

omit [ToValue α] in
/-- Successors with which nothing is wrong are states. -/
theorem mem_states_of_successorFaults {s : σ} {a : α} {ts : List (σ × Option Binary64)}
    (hnone : ts.flatMap (successorFaults gen.states s a) = []) :
    ∀ t ∈ ts, t.1 ∈ gen.states := by
  intro t ht
  have hfirst := List.flatMap_eq_nil_iff.1 hnone t ht
  unfold successorFaults at hfirst
  split at hfirst
  · assumption
  · cases hfirst

/-- An answer is looked at as a whole, then its edges are added. -/
theorem settles_addAction (hready : gen.Ready handles index start) (hkeys : index.keys = gen.states)
    (options : CompileOptions) {s : σ} (hs : s ∈ gen.states) (a : α)
    (hbegins : done ++ gen.answered s a <+: gen.relation)
    (hreached : gen.Reached index start done g) :
    SettlesUnless (gen.Crowded index start)
      (gen.addAction options gen.schema handles index (nodeIn index s) s g a)
      (gen.pairFaults options s a) (gen.Reached index start (done ++ gen.answered s a)) := by
  refine (settles_targets gen options s a).lift.bind ?_
  rintro ts rfl
  have hresolve := (settles_mapM (gen.delta s a).toList fun t =>
    settles_resolve hkeys s a t).and_faults_eq_nil
  rw [← List.append_nil ((gen.delta s a).toList.flatMap _)]
  refine hresolve.lift.bind ?_
  rintro _ ⟨rfl, hnone⟩
  exact (settles_foldlM_addTransition hready hkeys hs a _ (mem_states_of_successorFaults hnone)
    hbegins hreached).mapError CompileError.graph

/-- The edges of one state. -/
theorem settles_addActions (hready : gen.Ready handles index start)
    (hkeys : index.keys = gen.states) (options : CompileOptions) {s : σ} (hs : s ∈ gen.states)
    (hbegins : done ++ gen.actions.flatMap (gen.answered s) <+: gen.relation)
    (hreached : gen.Reached index start done g) :
    SettlesUnless (gen.Crowded index start)
      (gen.actions.foldlM (gen.addAction options gen.schema handles index (nodeIn index s) s) g)
      (gen.actions.flatMap (gen.pairFaults options s))
      (gen.Reached index start (done ++ gen.actions.flatMap (gen.answered s))) := by
  rw [← faultsAlong_const (gen.pairFaults options s) []]
  refine settlesUnless_foldlM (fun before => gen.Reached index start
    (done ++ before.flatMap (gen.answered s))) gen.actions ?_ (by simpa using hreached)
  intro before a after g' hsplit hreached'
  have hpair : done ++ (before ++ [a]).flatMap (gen.answered s) =
      done ++ before.flatMap (gen.answered s) ++ gen.answered s a := by simp
  rw [hpair]
  refine settles_addAction hready hkeys options hs a ?_ hreached'
  rw [hsplit, List.append_cons, List.flatMap_append, ← List.append_assoc, hpair] at hbegins
  exact (List.prefix_append _ _).trans hbegins

/-- The edges of all states, state by state and action by action. -/
theorem settles_addTransitions (hready : gen.Ready handles index start)
    (hindex : index.toList = numbered gen.states) (options : CompileOptions) :
    SettlesUnless (gen.Crowded index start)
      (gen.addTransitions options gen.schema handles index start)
      (gen.states.flatMap fun s => gen.actions.flatMap (gen.pairFaults options s))
      (gen.Reached index start gen.relation) := by
  have hkeys : index.keys = gen.states := keys_eq_of_numbered hindex
  have hstates : ∀ {β : Type} (f : σ → List β),
      gen.states.flatMap f = index.toList.flatMap fun e => f e.1 := by
    intro β f
    rw [← hkeys, OrderedMap.keys, List.flatMap_map]
    rfl
  have hrelation : gen.relation =
      index.toList.flatMap fun e => gen.actions.flatMap (gen.answered e.1) := hstates _
  rw [hrelation, hstates,
    ← faultsAlong_const (fun e : σ × NodeId => gen.actions.flatMap (gen.pairFaults options e.1)) []]
  refine settlesUnless_foldlM (fun before => gen.Reached index start
    (before.flatMap fun e => gen.actions.flatMap (gen.answered e.1))) index.toList ?_ {
      begins := List.nil_prefix
      declared := fun r hr => absurd hr List.not_mem_nil
      room := start.roomFor_nil
      graph := rfl }
  rintro before ⟨s, source⟩ after g hsplit hreached
  have hentry : (s, source) ∈ index.toList := by simp [hsplit]
  have hsource : nodeIn index s = source := by
    rw [nodeIn, (OrderedMap.get?_eq_some_iff index s source).2 hentry, Option.getD_some]
  have hs : s ∈ gen.states := hkeys ▸ OrderedMap.mem_keys_of_mem hentry
  have hpair : (before ++ [(s, source)]).flatMap
      (fun e => gen.actions.flatMap (gen.answered e.1)) =
        before.flatMap (fun e => gen.actions.flatMap (gen.answered e.1)) ++
          gen.actions.flatMap (gen.answered s) := by simp
  rw [hpair, ← hsource]
  refine settles_addActions hready hkeys options hs ?_ hreached
  rw [hrelation, hsplit, List.append_cons, List.flatMap_append, hpair]
  exact List.prefix_append _ _

end Edges

end StateGraph.Generator
