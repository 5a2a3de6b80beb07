import StateGraph.Proofs.Compilation.Keys

set_option autoImplicit false

/-!
# Which generators are compiled

`Generator.faults` lists everything that is wrong with a generator, in the order in
which a compilation looks for it: the options, the names of further properties, the
states, then for each state and action the answer and its successors, and last the
labels.  If there are keys for all transitions, a compilation fails with the first of these
faults, and succeeds if there is none (`Generator.compile_ok_iff_and_error_iff`).

`Generator.Acceptable` says in words of the generator that nothing is wrong.
-/

namespace StateGraph.Generator

variable {σ α : Type} {gen : Generator σ α} {handles : SchemaHandles} {g : Graph}

/-! ## Labels -/

section Labels

variable [Shown σ]

/-- What is wrong with the label of a state. -/
def atomFaults (labeling : Labeling σ) (s : σ) : List CompileError :=
  ((labeling.label s).toList.filter fun atom => !labeling.atoms.contains atom).map
    (.unknownAtom (shown s))

/-- What is wrong with the labels, if there are any propositions. -/
def labelFaults (gen : Generator σ α) : List CompileError :=
  match gen.labeling with
  | some labeling => if labeling.atoms.isEmpty then [] else gen.states.flatMap (atomFaults labeling)
  | none => []

theorem labelFaults_eq_nil_iff :
    gen.labelFaults = [] ↔ ∀ labeling, gen.labeling = some labeling →
      labeling.atoms.isEmpty = false → ∀ s ∈ gen.states, ∀ atom ∈ (labeling.label s).toList,
        labeling.atoms.contains atom = true := by
  unfold labelFaults
  cases gen.labeling with
  | none => simp
  | some labeling =>
    cases hempty : labeling.atoms.isEmpty with
    | true => simp [hempty]
    | false => simp [hempty, atomFaults]

/-- A label is written if all its propositions are declared. -/
theorem settles_addLabel {labeling : Labeling σ} {handle : Handle NodeId}
    (hhandle : g.nodeCatalog.handle? Schema.labelName = some handle) {n : NodeId}
    (hn : g.hasNode n = true) (s : σ) :
    Settles (addLabel labeling handle g (s, n)) (atomFaults labeling s)
      (· = g.putNodeValues n [(Schema.labelName, .labels (labeling.label s))]) := by
  unfold addLabel atomFaults
  simp only
  rw [← List.head?_filter]
  cases (labeling.label s).toList.filter fun atom => !labeling.atoms.contains atom with
  | nil =>
    simp only [List.head?_nil, Graph.setNodeValue_eq_ok hhandle hn, CompileError.ofGraph_ok]
    exact settles_ok rfl
  | cons atom atoms => rfl

omit [Shown σ] in
/-- The label of a state on its node. -/
def labelEntry (labeling : Labeling σ) (e : σ × NodeId) : NodeId × List (String × Value) :=
  (e.2, [(Schema.labelName, .labels (labeling.label e.1))])

omit [Shown σ] in
/-- The labels of all states on their nodes. -/
def labelEntries (gen : Generator σ α) : List (NodeId × List (String × Value)) :=
  match gen.labeling with
  | some labeling => (numbered gen.states).map (labelEntry labeling)
  | none => []

omit [Shown σ] in
/-- A graph with labels on its nodes. -/
def labelled (gen : Generator σ α) (g : Graph) : Graph :=
  { g with nodeCatalog := g.nodeCatalog.putAll gen.labelEntries }

omit [Shown σ] in
/-- Without a property for them, labels are passed over. -/
theorem labelled_of_not_mem (hname : Schema.labelName ∉ g.nodeCatalog.names) :
    gen.labelled g = g := by
  have hskip : ∀ (labeling : Labeling σ) (l : List (σ × NodeId)),
      g.nodeCatalog.putAll (l.map (labelEntry labeling)) = g.nodeCatalog := by
    intro labeling l
    induction l with
    | nil => rfl
    | cons e l ih =>
      have hfirst : g.nodeCatalog.putMany e.2 (labelEntry labeling e).2 = g.nodeCatalog :=
        Catalog.put_of_not_mem hname e.2 _
      rw [List.map_cons, Catalog.putAll, List.foldl_cons,
        show (labelEntry labeling e).1 = e.2 from rfl, hfirst]
      exact ih
  unfold labelled labelEntries
  cases gen.labeling with
  | none => rfl
  | some labeling => rw [hskip]

/-- All states get their labels, if there is a property for them. -/
theorem settles_addLabels [DecidableEq σ] {index : OrderedMap σ NodeId}
    (hready : gen.Ready handles index g) (hindex : index.toList = numbered gen.states)
    (hfree : ∀ name ∈ gen.stateProperties.keys, Schema.isReserved name = false) :
    Settles (gen.addLabels handles index g) gen.labelFaults (· = gen.labelled g) := by
  have hlabels : handles.label.isSome = true ↔ Schema.hasAtoms gen.atoms = true := by
    rw [← hready.installed.label, Catalog.handle?_isSome_iff, hready.installed.nodeNames]
    exact Schema.labelName_mem_iff hfree gen.turnBased gen.atoms
  have hskip : handles.label = none → gen.labelled g = g := by
    intro hnone
    refine labelled_of_not_mem ?_
    rw [← Catalog.handle?_eq_none_iff, hready.installed.label, hnone]
  unfold addLabels labelFaults
  cases hlabeling : gen.labeling with
  | none =>
    have hnone : gen.labelled g = g := by
      rw [labelled, labelEntries, hlabeling]
      rfl
    exact settles_ok hnone.symm
  | some labeling =>
    have hatoms : Schema.hasAtoms gen.atoms = !labeling.atoms.isEmpty := by
      rw [atoms, hlabeling]
      rfl
    rw [hatoms] at hlabels
    simp only
    cases hempty : labeling.atoms.isEmpty with
    | true =>
      have hnone : handles.label = none := by
        rw [← Option.not_isSome_iff_eq_none, hlabels, hempty]
        decide
      rw [hnone]
      exact settles_ok (hskip hnone).symm
    | false =>
      rw [hempty] at hlabels
      obtain ⟨handle, hhandle⟩ := Option.isSome_iff_exists.1 (hlabels.2 rfl)
      have hstates : gen.states.flatMap (atomFaults labeling) =
          index.toList.flatMap fun e => atomFaults labeling e.1 := by
        rw [← keys_eq_of_numbered hindex, OrderedMap.keys, List.flatMap_map]
        rfl
      rw [hhandle, if_neg Bool.false_ne_true, hstates,
        ← faultsAlong_const (fun e : σ × NodeId => atomFaults labeling e.1) []]
      refine (settles_foldlM (fun before g' => g' = { g with
        nodeCatalog := g.nodeCatalog.putAll (before.map (labelEntry labeling)) }) index.toList ?_
          rfl).mono ?_
      · rintro before ⟨s, n⟩ after _ hsplit rfl
        have hentry : (s, n) ∈ index.toList := by simp [hsplit]
        have hn : g.hasNode n = true := by
          have hnode := hready.nodes s (OrderedMap.mem_keys_of_mem hentry)
          rwa [nodeIn, (OrderedMap.get?_eq_some_iff index s n).2 hentry] at hnode
        have hlabel : (g.nodeCatalog.putAll (before.map (labelEntry labeling))).handle?
            Schema.labelName = some handle := by
          rw [Catalog.handle?_congr (Catalog.owner_putAll _ _) (Catalog.names_putAll _ _)]
          exact hready.installed.label.trans hhandle
        refine (settles_addLabel (g := { g with
          nodeCatalog := g.nodeCatalog.putAll (before.map (labelEntry labeling)) })
        hlabel hn s).mono ?_
        rintro _ rfl
        rw [List.map_append, Catalog.putAll, Catalog.putAll, List.foldl_append]
        rfl
      · rintro _ rfl
        rw [labelled, labelEntries, hlabeling, hindex]

end Labels

/-! ## All faults -/

/-- What is wrong with options. -/
def optionFaults (options : CompileOptions) : List CompileError :=
  if options.isValid then [] else [.invalidTolerance options.tolerance]

theorem optionFaults_eq_nil_iff (options : CompileOptions) :
    optionFaults options = [] ↔ options.isValid = true := by
  unfold optionFaults
  cases options.isValid <;> simp

theorem settles_validate (options : CompileOptions) :
    Settles options.validate (optionFaults options) fun _ => True := by
  unfold CompileOptions.validate optionFaults
  cases options.isValid with
  | true => exact settles_ok trivial
  | false => rfl

/-- Nothing is wrong with a generator. -/
structure Acceptable (gen : Generator σ α) (options : CompileOptions) : Prop where
  tolerance : options.isValid = true
  stateNames : ∀ name ∈ gen.stateProperties.keys, Schema.isReserved name = false
  transitionNames : ∀ name ∈ gen.transitionProperties.keys, Schema.isReserved name = false
  distinct : gen.states.Nodup
  shapes : ∀ s ∈ gen.states, ∀ a ∈ gen.actions,
    (gen.delta s a).shape = expectedShape gen.branching
  distributions : ∀ s ∈ gen.states, ∀ a ∈ gen.actions, ∀ ts, gen.delta s a = .weighted ts →
    Distribution.check (ts.map Prod.snd) options.tolerance = .ok ()
  successors : ∀ s ∈ gen.states, ∀ a ∈ gen.actions, ∀ t ∈ (gen.delta s a).toList, t.1 ∈ gen.states
  labels : ∀ labeling, gen.labeling = some labeling → labeling.atoms.isEmpty = false →
    ∀ s ∈ gen.states, ∀ atom ∈ (labeling.label s).toList, labeling.atoms.contains atom = true

section Faults

variable [DecidableEq σ] [Shown σ] [Shown α]

/-- Everything that is wrong with a generator, in the order in which it is looked
for. -/
def faults (gen : Generator σ α) (options : CompileOptions) : List CompileError :=
  optionFaults options ++ (Schema.nameFaults .state gen.stateProperties ++
    Schema.nameFaults .transition gen.transitionProperties) ++
    faultsAlong stateFaults [] gen.states ++
    (gen.states.flatMap fun s => gen.actions.flatMap (gen.pairFaults options s)) ++
    gen.labelFaults

/-! ## Acceptance -/

theorem pairFaults_eq_nil_iff (options : CompileOptions) (s : σ) (a : α) :
    gen.pairFaults options s a = [] ↔
      ((gen.delta s a).shape = expectedShape gen.branching ∧
        ∀ ts, gen.delta s a = .weighted ts →
          Distribution.check (ts.map Prod.snd) options.tolerance = .ok ()) ∧
      ∀ t ∈ (gen.delta s a).toList, t.1 ∈ gen.states := by
  rw [pairFaults, List.append_eq_nil_iff, answerFaults_eq_nil_iff, List.flatMap_eq_nil_iff]
  simp [successorFaults]

/-- A generator is acceptable if nothing is found to be wrong with it. -/
theorem faults_eq_nil_iff (options : CompileOptions) :
    gen.faults options = [] ↔ gen.Acceptable options := by
  simp only [faults, List.append_eq_nil_iff, List.flatMap_eq_nil_iff, optionFaults_eq_nil_iff,
    Schema.nameFaults_eq_nil_iff, faultsAlong_stateFaults_eq_nil_iff, pairFaults_eq_nil_iff,
    labelFaults_eq_nil_iff]
  constructor
  · rintro ⟨⟨⟨⟨hoptions, hstateNames, htransitionNames⟩, hdistinct⟩, hpairs⟩, hlabels⟩
    exact {
      tolerance := hoptions
      stateNames := hstateNames
      transitionNames := htransitionNames
      distinct := hdistinct
      shapes := fun s hs a ha => (hpairs s hs a ha).1.1
      distributions := fun s hs a ha => (hpairs s hs a ha).1.2
      successors := fun s hs a ha => (hpairs s hs a ha).2
      labels := hlabels }
  · intro h
    refine ⟨⟨⟨⟨h.tolerance, h.stateNames, h.transitionNames⟩, h.distinct⟩, ?_⟩, h.labels⟩
    intro s hs a ha
    exact ⟨⟨h.shapes s hs a ha, h.distributions s hs a ha⟩, h.successors s hs a ha⟩

/-! ## The whole compilation -/

variable [ToValue σ] [ToValue α]

/-- The graph that a generator is compiled to, given the nodes of its states. -/
def compiledGraph (gen : Generator σ α) (owner : Identity) (index : OrderedMap σ NodeId) : Graph :=
  gen.labelled ((gen.graphOf owner gen.states).withEdges (gen.newEdges index))

/-- A system was compiled from a generator: its states have their positions as nodes,
and its graph has what the generator says of states and outcomes, and the attributes
that say the rest. -/
structure Compiled (gen : Generator σ α) (owner : Identity) (t : TransitionSystem σ α) : Prop where
  distinct : gen.states.Nodup
  states : t.states.toList = numbered gen.states
  assembled : t = .assemble (gen.compiledGraph owner t.states) t.states gen.actions gen.atoms
    gen.branching gen.turnBased

omit [Shown σ] [Shown α] in
/-- The edges are those of the outcomes. -/
theorem Compiled.edges {owner : Identity} {t : TransitionSystem σ α}
    (hcompiled : gen.Compiled owner t) :
    ∃ g : Graph, g.adjacency = .isolated gen.states.length.toUInt32 ∧
      g.edgeCatalog = .declared owner gen.schema.edge ∧
      t.graph.adjacency = (g.withEdges (gen.newEdges t.states)).adjacency ∧
      t.graph.edgeCatalog = (g.withEdges (gen.newEdges t.states)).edgeCatalog := by
  refine ⟨gen.graphOf owner gen.states, rfl, rfl, ?_, ?_⟩
  · exact congrArg (fun t => t.graph.adjacency) hcompiled.assembled
  · exact congrArg (fun t => t.graph.edgeCatalog) hcompiled.assembled

/-- A compilation finds the first fault or compiles.  It overflows only if there are not keys
for all transitions. -/
theorem settles_compile (hfew : gen.states.length < 2 ^ 32) (options : CompileOptions)
    (owner : Identity) :
    SettlesUnless (¬ gen.HasKeys) (gen.compile options owner) (gen.faults options)
      fun t => gen.Compiled owner t ∧ gen.HasKeys := by
  have hstate : Schema.stateName ∈ gen.schema.node.keys :=
    Schema.stateName_mem gen.turnBased gen.atoms gen.stateProperties
  have haction : Schema.actionName ∈ gen.schema.edge.keys :=
    Schema.actionName_mem gen.branching gen.transitionProperties
  obtain ⟨handles, happly, hinstalled⟩ := Schema.apply_empty hstate haction owner
  unfold faults
  rw [List.append_assoc, List.append_assoc, List.append_assoc]
  refine (settles_validate options).lift.bind fun _ _ => ?_
  refine (Schema.settles_plan _ _ _ _ _).lift.bind ?_
  rintro schema ⟨hschema, hfree⟩
  obtain rfl : schema = gen.schema := hschema
  rw [happly]
  refine (settles_addStates hfew hinstalled).lift.bind ?_
  rintro ⟨g, index⟩ hadded
  obtain rfl : g = gen.graphOf owner gen.states := hadded.graph
  have hready := hadded.ready hfew
  refine ((settles_addTransitions hready hadded.index options).imp_cause ?_).bind ?_
  · rintro ⟨done, hbegins, hdeclared, hnone⟩ hkeys
    exact hnone (hkeys.roomFor hadded.distinct hadded.index hfew
      (keyCount_graphOf gen owner gen.states) hbegins hdeclared)
  rintro g hreached
  have hkeys := hasKeys_of_roomFor hadded.distinct hadded.index hfew hreached.declared hreached.room
  obtain rfl : g = (gen.graphOf owner gen.states).withEdges (gen.newEdges index) :=
    map_edgeOf_relation gen index ▸ hreached.graph
  rw [← List.append_nil gen.labelFaults]
  refine (settles_addLabels (hready.withEdges _) hadded.index hfree).lift.bind ?_
  rintro _ rfl
  exact settlesUnless_ok ⟨{
    distinct := hadded.distinct
    states := hadded.index
    assembled := rfl }, hkeys⟩

/-- What is compiled has fewer than `2 ^ 32` states. -/
theorem length_states_lt {options : CompileOptions} {owner : Identity} {t : TransitionSystem σ α}
    (hcompile : gen.compile options owner = .ok t) : gen.states.length < 2 ^ 32 := by
  obtain ⟨⟨⟩, -, hrest⟩ := bind_eq_ok_iff.1 hcompile
  obtain ⟨schema, -, hrest⟩ := bind_eq_ok_iff.1 hrest
  obtain ⟨⟨g, index⟩, hstates, -⟩ := bind_eq_ok_iff.1 hrest
  have hcount := nodeCount_addStates gen.states (Fault.lift_eq_ok_iff.1 hstates)
  have hbound : g.nodeCount < 2 ^ 32 := g.adjacency.nodeCount.toNat_lt
  have hcount' : g.nodeCount = _ := hcount
  omega

/-- What is compiled is acceptable, has keys for all transitions, and has the states, edges and
attributes that it should have. -/
theorem compiled_of_compile_eq_ok {options : CompileOptions} {owner : Identity}
    {t : TransitionSystem σ α} (hcompile : gen.compile options owner = .ok t) :
    gen.states.length < 2 ^ 32 ∧ gen.Acceptable options ∧ gen.HasKeys ∧ gen.Compiled owner t := by
  have hfew := length_states_lt hcompile
  obtain ⟨hnone, hcompiled, hkeys⟩ := (settles_compile hfew options owner).faults_eq_nil hcompile
  exact ⟨hfew, (faults_eq_nil_iff options).1 hnone, hkeys, hcompiled⟩

/-- A generator with which nothing is wrong, and for which there are keys, is compiled. -/
theorem exists_compile_eq_ok (gen : Generator σ α) (options : CompileOptions) (owner : Identity)
    (hfew : gen.states.length < 2 ^ 32) (hkeys : gen.HasKeys) (hnone : gen.faults options = []) :
    ∃ t, gen.compile options owner = .ok t := by
  have hsettles := (settles_compile hfew options owner).settles (not_not_intro hkeys)
  rw [hnone] at hsettles
  obtain ⟨t, ht, -⟩ := hsettles.eq_ok
  exact ⟨t, ht⟩

/-- With keys for all transitions, a generator is compiled if it is acceptable, and otherwise the
first of its faults is reported.  Without them the compilation overflows, unless a fault is found
before, which is then the first. -/
theorem compile_ok_iff_and_error_iff (hfew : gen.states.length < 2 ^ 32)
    (options : CompileOptions) (owner : Identity) :
    (gen.HasKeys →
      ((∃ t, gen.compile options owner = .ok t) ↔ gen.Acceptable options) ∧
        ∀ e, gen.compile options owner = .error (.refused e) ↔
          (gen.faults options).head? = some e) ∧
      (¬ gen.HasKeys → gen.compile options owner = .error .overflow ∨
        ∃ e, gen.compile options owner = .error (.refused e) ∧
          (gen.faults options).head? = some e) := by
  have hcompile := settles_compile hfew options owner
  refine ⟨fun hkeys => ⟨⟨?_, ?_⟩, fun e => ⟨hcompile.head?_of_refused, ?_⟩⟩,
    fun hnot => ?_⟩
  · rintro ⟨t, ht⟩
    exact (faults_eq_nil_iff options).1 (hcompile.faults_eq_nil ht).1
  · intro hacceptable
    exact exists_compile_eq_ok gen options owner hfew hkeys
      ((faults_eq_nil_iff options).2 hacceptable)
  · intro hhead
    rw [(hcompile.settles (not_not_intro hkeys)).eq_error_iff, List.head?_map, hhead]
    rfl
  · cases hresult : gen.compile options owner with
    | ok t => exact absurd (hcompile.faults_eq_nil hresult).2.2 hnot
    | error fault =>
      cases fault with
      | overflow => exact .inl rfl
      | refused e => exact .inr ⟨e, rfl, hcompile.head?_of_refused hresult⟩

end Faults

/-- One state with one action, which leads back to it in the given number of ways. -/
def crowded (n : Nat) : Generator Bool String where
  states := [true]
  actions := ["go"]
  delta := fun s _ => .choice (List.replicate n s)
  turnBased := false
  deterministic := false
  qualitative := true

theorem acceptable_crowded (n : Nat) : (crowded n).Acceptable .standard where
  tolerance := by decide
  stateNames name hname := by cases hname
  transitionNames name hname := by cases hname
  distinct := List.nodup_singleton true
  shapes _ _ _ _ := rfl
  distributions _ _ _ _ _ hdelta := by cases hdelta
  successors s hs a _ t ht := by
    obtain ⟨s', hs', rfl⟩ := List.mem_map.1 ht
    rwa [List.eq_of_mem_replicate hs']
  labels labeling hlabeling := by cases hlabeling

/-- There are keys for as many ways back as there are keys. -/
theorem hasKeys_crowded_iff (n : Nat) : (crowded n).HasKeys ↔ n ≤ 2 ^ 32 := by
  simp [HasKeys, outcomesTo, outcomes, crowded, Successors.toList]

/-- One generator that is compiled, one whose second answer has the wrong shape and whose
labels are wrong too, and one that is in order but has a way back too many. -/
theorem compile_two_states :
    (∃ t, ({ states := [false, true], actions := [false], delta := fun s _ => .single (!s) } :
        Generator Bool Bool).compile .standard ⟨0⟩ = .ok t) ∧
      ({ states := [false, true]
         actions := [false]
         delta := fun s _ => if s then .choice [s] else .single true
         labeling := some ⟨.ofList ["p"], fun _ => .ofList ["q"]⟩ } : Generator Bool Bool).compile
        .standard ⟨0⟩ =
        .error (.refused (.shapeMismatch "true" "false" .deterministic .unweighted)) ∧
      (crowded (2 ^ 32 + 1)).compile .standard ⟨0⟩ = .error .overflow := by
  refine ⟨?_, ?_, ?_⟩
  · exact ((compile_ok_iff_and_error_iff (by decide) _ _).1 (by decide)).1.2
      ((faults_eq_nil_iff _).1 (by decide))
  · exact (((compile_ok_iff_and_error_iff (by decide) _ _).1 (by decide)).2 _).2 (by decide)
  · have hmany : ¬ (crowded (2 ^ 32 + 1)).HasKeys := by
      rw [hasKeys_crowded_iff]
      exact Nat.not_succ_le_self _
    have hfew : (crowded (2 ^ 32 + 1)).states.length < 2 ^ 32 := by decide
    refine ((compile_ok_iff_and_error_iff hfew _ _).2 hmany).resolve_right ?_
    rintro ⟨e, -, hfault⟩
    rw [(faults_eq_nil_iff _).2 (acceptable_crowded _)] at hfault
    cases hfault

end StateGraph.Generator
