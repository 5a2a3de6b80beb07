import StateGraph.Proofs.Growth
import StateGraph.Proofs.Schema
import StateGraph.Proofs.WellFormed
import StateGraph.Transition.Compile

set_option autoImplicit false

/-!
# Compiling states

Each step of a compilation is described by one statement (`Settles`): which faults it
may find, in the order in which it looks for them, and what it leaves behind if there
is none.

No request to the graph is ever refused.  The properties of the schema are there
under the handles that were taken, and values are written on elements that exist.
So a step on states has one kind of fault only, a state that comes twice.
-/

namespace StateGraph

/-! ## Accepted writes -/

namespace Graph

theorem setNodeValue_eq_ok {g : Graph} {h : Handle NodeId} {name : String}
    (hhandle : g.nodeCatalog.handle? name = some h) {n : NodeId} (hn : g.hasNode n = true)
    (v : Value) : g.setNodeValue h n v = .ok (g.putNodeValues n [(name, v)]) := by
  have hname := Catalog.handle?_isSome_iff.1 (Option.isSome_of_eq_some hhandle)
  obtain ⟨previous, hwrite⟩ := Catalog.writeByName_of_mem hname hn v
  rw [setNodeValue, Catalog.write_of_handle hhandle, hwrite]
  rfl

theorem setNodeValueByName_eq_ok {g : Graph} {name : String} (hname : name ∈ g.nodeCatalog.names)
    {n : NodeId} (hn : g.hasNode n = true) (v : Value) :
    g.setNodeValueByName name n v = .ok (g.putNodeValues n [(name, v)]) := by
  obtain ⟨previous, hwrite⟩ := Catalog.writeByName_of_mem hname hn v
  rw [setNodeValueByName, hwrite]
  rfl

/-- Writes values on an edge that exists. -/
def putEdgeValues (g : Graph) (e : EdgeId) (values : List (String × Value)) : Graph :=
  { g with edgeCatalog := g.edgeCatalog.putMany e values }

theorem setEdgeValue_eq_ok {g : Graph} {h : Handle EdgeId} {name : String}
    (hhandle : g.edgeCatalog.handle? name = some h) {e : EdgeId} (he : g.hasEdge e = true)
    (v : Value) : g.setEdgeValue h e v = .ok (g.putEdgeValues e [(name, v)]) := by
  have hname := Catalog.handle?_isSome_iff.1 (Option.isSome_of_eq_some hhandle)
  obtain ⟨previous, hwrite⟩ := Catalog.writeByName_of_mem hname he v
  rw [setEdgeValue, Catalog.write_of_handle hhandle, hwrite]
  rfl

theorem setEdgeValueByName_eq_ok {g : Graph} {name : String} (hname : name ∈ g.edgeCatalog.names)
    {e : EdgeId} (he : g.hasEdge e = true) (v : Value) :
    g.setEdgeValueByName name e v = .ok (g.putEdgeValues e [(name, v)]) := by
  obtain ⟨previous, hwrite⟩ := Catalog.writeByName_of_mem hname he v
  rw [setEdgeValueByName, hwrite]
  rfl

/-- A value under a name that is not declared is passed over. -/
theorem putNodeValues_of_not_mem {g : Graph} {name : String} (hname : name ∉ g.nodeCatalog.names)
    (n : NodeId) (v : Value) : g.putNodeValues n [(name, v)] = g :=
  congrArg (fun c => { g with nodeCatalog := c }) (Catalog.put_of_not_mem hname n v)

theorem putEdgeValues_of_not_mem {g : Graph} {name : String} (hname : name ∉ g.edgeCatalog.names)
    (e : EdgeId) (v : Value) : g.putEdgeValues e [(name, v)] = g :=
  congrArg (fun c => { g with edgeCatalog := c }) (Catalog.put_of_not_mem hname e v)

theorem putNodeValues_append (g : Graph) (n : NodeId) (l₁ l₂ : List (String × Value)) :
    g.putNodeValues n (l₁ ++ l₂) = (g.putNodeValues n l₁).putNodeValues n l₂ := by
  unfold putNodeValues Catalog.putMany
  rw [List.foldl_append]

theorem putEdgeValues_append (g : Graph) (e : EdgeId) (l₁ l₂ : List (String × Value)) :
    g.putEdgeValues e (l₁ ++ l₂) = (g.putEdgeValues e l₁).putEdgeValues e l₂ := by
  unfold putEdgeValues Catalog.putMany
  rw [List.foldl_append]

/-- Values on nodes leave nodes and edges as they are. -/
theorem adjacency_setNodeValue {g g' : Graph} {h : Handle NodeId} {n : NodeId} {v : Value}
    (hset : g.setNodeValue h n v = .ok g') : g'.adjacency = g.adjacency := by
  obtain ⟨written, -, hdone⟩ := bind_eq_ok_iff.1 hset
  cases hdone
  rfl

theorem adjacency_setNodeValueByName {g g' : Graph} {name : String} {n : NodeId} {v : Value}
    (hset : g.setNodeValueByName name n v = .ok g') : g'.adjacency = g.adjacency := by
  obtain ⟨written, -, hdone⟩ := bind_eq_ok_iff.1 hset
  cases hdone
  rfl

end Graph

@[simp] theorem CompileError.ofGraph_ok {β : Type} (b : β) : ofGraph (.ok b) = .ok b := rfl

theorem CompileError.ofGraph_eq_ok_iff {β : Type} {x : Except GraphError β} {b : β} :
    ofGraph x = .ok b ↔ x = .ok b := by
  cases x with
  | error e => simp [ofGraph, Except.mapError]
  | ok a => simp

/-- A loop that writes the values it wants, none of which is refused. -/
theorem foldlM_write_eq_ok (ready : Graph → Prop) {wanted : String → Bool}
    (write : Graph → String → Value → Except GraphError Graph)
    (put : Graph → List (String × Value) → Graph)
    (hwrite : ∀ g name v, ready g → wanted name = true → write g name v = .ok (put g [(name, v)]))
    (hready : ∀ g l, ready g → ready (put g l)) (hnil : ∀ g, put g [] = g)
    (happend : ∀ g l₁ l₂, put g (l₁ ++ l₂) = put (put g l₁) l₂) (l : List (String × Value))
    {g : Graph} (hg : ready g) :
    l.foldlM (fun g (name, v) => if wanted name then write g name v else .ok g) g =
      .ok (put g (l.filter fun x => wanted x.1)) := by
  induction l generalizing g with
  | nil =>
    rw [List.filter_nil, hnil]
    rfl
  | cons x l ih =>
    obtain ⟨name, v⟩ := x
    simp only [List.foldlM_cons]
    by_cases hname : wanted name = true
    · have hkeep : ((name, v) :: l).filter (fun x => wanted x.1) =
          [(name, v)] ++ l.filter fun x => wanted x.1 := by simp [hname]
      rw [if_pos hname, hwrite g name v hg hname, ok_bind, ih (hready g _ hg), hkeep, happend]
    · have hdrop : ((name, v) :: l).filter (fun x => wanted x.1) =
          l.filter fun x => wanted x.1 := by simp [hname]
      rw [if_neg hname, ok_bind, ih hg, hdrop]

namespace Generator

variable {σ α : Type} {gen : Generator σ α} {handles : SchemaHandles} {g : Graph}

/-! ## States -/

/-- The schema of a generator. -/
def schema (gen : Generator σ α) : Schema :=
  ⟨Schema.nodeProperties gen.turnBased gen.atoms gen.stateProperties,
    Schema.edgeProperties gen.branching gen.transitionProperties⟩

/-- States with the nodes that belong to their positions. -/
def numbered (states : List σ) : List (σ × NodeId) :=
  states.zipIdx.map fun e => (e.1, ⟨e.2.toUInt32⟩)

theorem map_fst_numbered (states : List σ) : (numbered states).map Prod.fst = states := by
  rw [numbered, List.map_map]
  exact List.zipIdx_map_fst 0 states

theorem numbered_concat (states : List σ) (s : σ) :
    numbered (states ++ [s]) = numbered states ++ [(s, ⟨states.length.toUInt32⟩)] := by
  simp [numbered, List.zipIdx_append]

theorem keys_eq_of_numbered {index : OrderedMap σ NodeId} {states : List σ}
    (hindex : index.toList = numbered states) :
    index.keys = states := by
  rw [OrderedMap.keys, show index.entries = numbered states from hindex, map_fst_numbered]

/-- The node of a state is its position. -/
theorem get?_index_iff [DecidableEq σ] {index : OrderedMap σ NodeId} {states : List σ}
    (hindex : index.toList = numbered states) (s : σ) (n : NodeId) :
    index.get? s = some n ↔ ∃ i : Nat, states[i]? = some s ∧ n = ⟨i.toUInt32⟩ := by
  rw [OrderedMap.get?_eq_some_iff, hindex, numbered, List.mem_map]
  simp only [Prod.exists, Prod.mk.injEq, List.mk_mem_zipIdx_iff_getElem?]
  constructor
  · rintro ⟨_, i, hi, rfl, rfl⟩
    exact ⟨i, hi, rfl⟩
  · rintro ⟨i, hi, rfl⟩
    exact ⟨s, i, hi, rfl, rfl⟩

/-- Everything that a generator says of a state. -/
def stateValues [ToValue σ] (gen : Generator σ α) (s : σ) : List (String × Value) :=
  [(Schema.stateName, toValue s)] ++
    ((gen.turn s).map fun player => (Schema.turnName, Value.int player)).toList ++
    (gen.stateAttributes s).toList.filter fun x => gen.schema.isFurtherNode x.1

/-- Values on nodes leave a schema installed. -/
theorem installed_putNodeValues (hinstalled : gen.schema.Installed handles g) (n : NodeId)
    (values : List (String × Value)) : gen.schema.Installed handles (g.putNodeValues n values) :=
  hinstalled.congr (Catalog.owner_putMany _ _ _) (Catalog.names_putMany _ _ _) rfl rfl

/-- Further values on a node are accepted. -/
theorem writeStateAttributes_eq_ok (hinstalled : gen.schema.Installed handles g) {n : NodeId}
    (hn : g.hasNode n = true) (values : Attributes) :
    writeStateAttributes gen.schema n g values =
      .ok (g.putNodeValues n (values.toList.filter fun x => gen.schema.isFurtherNode x.1)) := by
  refine foldlM_write_eq_ok (fun g => gen.schema.Installed handles g ∧ g.hasNode n = true)
    (fun g name v => g.setNodeValueByName name n v) (fun g l => g.putNodeValues n l) ?_ ?_
    (fun _ => rfl) (fun g => g.putNodeValues_append n) values.toList ⟨hinstalled, hn⟩
  · rintro g name v ⟨hinstalled, hn⟩ hwanted
    have hname : name ∈ g.nodeCatalog.names := by
      rw [hinstalled.nodeNames, ← OrderedMap.contains_iff_mem_keys]
      exact (Bool.and_eq_true_iff.1 hwanted).2
    exact Graph.setNodeValueByName_eq_ok hname hn v
  · rintro g l ⟨hinstalled, hn⟩
    exact ⟨installed_putNodeValues hinstalled n l, hn⟩

/-- All that is said of a state is accepted; a turn is passed over if there is no
property for it. -/
theorem writeState_eq_ok [ToValue σ] (hinstalled : gen.schema.Installed handles g) {n : NodeId}
    (hn : g.hasNode n = true) (s : σ) :
    gen.writeState gen.schema handles s n g = .ok (g.putNodeValues n (gen.stateValues s)) := by
  have hrest : ∀ l,
      writeStateAttributes gen.schema n (g.putNodeValues n l) (gen.stateAttributes s) =
      .ok (g.putNodeValues n
        (l ++ (gen.stateAttributes s).toList.filter fun x => gen.schema.isFurtherNode x.1)) := by
    intro l
    rw [writeStateAttributes_eq_ok (installed_putNodeValues hinstalled n l) hn,
      Graph.putNodeValues_append]
  have hinstalled₁ := installed_putNodeValues hinstalled n [(Schema.stateName, toValue s)]
  unfold writeState stateValues
  rw [Graph.setNodeValue_eq_ok hinstalled.state hn, ok_bind]
  cases hplayer : gen.turn s with
  | none => cases handles.turn <;> exact hrest _
  | some player =>
    have hhandle := hinstalled₁.turn
    cases hturn : handles.turn with
    | some turn =>
      rw [hturn] at hhandle
      simp only
      rw [Graph.setNodeValue_eq_ok hhandle hn, ok_bind, ← Graph.putNodeValues_append]
      exact hrest _
    | none =>
      rw [hturn, Catalog.handle?_eq_none_iff] at hhandle
      have hskip := Graph.putNodeValues_of_not_mem hhandle n (.int player)
      rw [← Graph.putNodeValues_append] at hskip
      simp only
      rw [ok_bind, ← hskip]
      exact hrest _

/-- What is wrong with a state, given the states before it. -/
def stateFaults [DecidableEq σ] [Shown σ] (before : List σ) (s : σ) : List CompileError :=
  if s ∈ before then [.duplicateState (shown s)] else []

theorem faultsAlong_stateFaults_eq_nil_iff [DecidableEq σ] [Shown σ] (states : List σ) :
    faultsAlong stateFaults [] states = [] ↔ states.Nodup := by
  have hrepeats : (stateFaults : List σ → σ → List CompileError) =
      fun before s => [] ++ repeatFaults id (fun s => .duplicateState (shown s)) before s := by
    funext before s
    rw [stateFaults, repeatFaults, List.map_id, List.nil_append]
    rfl
  rw [hrepeats, faultsAlong_eq_nil_iff_nodup id (fun _ => []) _ [] List.nodup_nil, List.nil_append,
    List.map_id]
  simp

/-- The values of states on their nodes. -/
def stateEntries [ToValue σ] (gen : Generator σ α) (states : List σ) :
    List (NodeId × List (String × Value)) :=
  (numbered states).map fun e => (e.2, gen.stateValues e.1)

/-- The graph of some states, with their values and without edges. -/
def graphOf [ToValue σ] (gen : Generator σ α) (owner : Identity) (states : List σ) : Graph where
  adjacency := .isolated states.length.toUInt32
  nodeCatalog := (Catalog.declared owner gen.schema.node).putAll (gen.stateEntries states)
  edgeCatalog := .declared owner gen.schema.edge
  attributes := .empty

/-- States alone have no edges. -/
theorem keyCount_graphOf [ToValue σ] (gen : Generator σ α) (owner : Identity) (states : List σ)
    (u v : NodeId) : (gen.graphOf owner states).adjacency.keyCount u v = 0 := rfl

/-- One more state takes the next node. -/
theorem graphOf_concat [ToValue σ] (gen : Generator σ α) (owner : Identity)
    (states : List σ) (s : σ) :
    gen.graphOf owner (states ++ [s]) =
      ({ gen.graphOf owner states with
        adjacency := .isolated (states.length.toUInt32 + 1) } : Graph).putNodeValues
          ⟨states.length.toUInt32⟩ (gen.stateValues s) := by
  have hcount : (states ++ [s]).length.toUInt32 = states.length.toUInt32 + 1 := by
    rw [List.length_append, List.length_singleton]
    exact UInt32.ofNat_add states.length 1
  have hentries : gen.stateEntries (states ++ [s]) =
      gen.stateEntries states ++ [(⟨states.length.toUInt32⟩, gen.stateValues s)] := by
    rw [stateEntries, numbered_concat, List.map_append]
    rfl
  rw [graphOf, hcount, hentries, Catalog.putAll, List.foldl_append]
  rfl

/-- The graph and the index when some states have their nodes. -/
structure StatesAdded [ToValue σ] (gen : Generator σ α) (owner : Identity) (handles : SchemaHandles)
    (states : List σ) (acc : Graph × OrderedMap σ NodeId) : Prop where
  distinct : states.Nodup
  index : acc.2.toList = numbered states
  graph : acc.1 = gen.graphOf owner states
  installed : gen.schema.Installed handles acc.1

/-- The nodes of states exist among as many nodes. -/
theorem hasNode_of_mem_numbered {states : List σ} (hfew : states.length < 2 ^ 32) {e : σ × NodeId}
    (he : e ∈ numbered states) :
    (Adjacency.isolated states.length.toUInt32).hasNode e.2 = true := by
  obtain ⟨⟨s, i⟩, hi, rfl⟩ := List.mem_map.1 he
  obtain ⟨hlt, -⟩ := List.getElem?_eq_some_iff.1 (List.mk_mem_zipIdx_iff_getElem?.1 hi)
  rw [Adjacency.hasNode_iff]
  show i.toUInt32.toNat < states.length.toUInt32.toNat
  rwa [toNat_toUInt32 hfew, toNat_toUInt32 (Nat.lt_trans hlt hfew)]

/-- A node is added to nodes without edges. -/
theorem addNode_of_isolated {nodeCount : UInt32} (hisolated : g.adjacency = .isolated nodeCount)
    (hroom : nodeCount.toNat + 1 < 2 ^ 32) :
    g.addNode = .ok ({ g with adjacency := .isolated (nodeCount + 1) }, ⟨nodeCount⟩) ∧
      ({ g with adjacency := .isolated (nodeCount + 1) } : Graph).hasNode ⟨nodeCount⟩ = true := by
  have hnodes : g.adjacency.addNodes 1 =
      .ok (.isolated (nodeCount + 1), ⟨nodeCount, nodeCount + 1⟩) := by
    rw [hisolated, Adjacency.addNodes_eq_ok_iff]
    exact ⟨hroom, rfl, rfl⟩
  constructor
  · rw [Graph.addNode, hnodes]
    rfl
  · rw [Graph.hasNode, Adjacency.hasNode_iff]
    show nodeCount.toNat < (nodeCount + 1).toNat
    rw [UInt32.toNat_add, UInt32.toNat_one, Nat.mod_eq_of_lt hroom]
    exact Nat.lt_succ_self _

/-- A state gets the next node, unless it has one. -/
theorem StatesAdded.addState [DecidableEq σ] [ToValue σ] [Shown σ] {owner : Identity}
    {before : List σ} {acc : Graph × OrderedMap σ NodeId}
    (hadded : StatesAdded gen owner handles before acc) (hfew : before.length + 1 < 2 ^ 32)
    (s : σ) :
    Settles (gen.addState gen.schema handles acc s) (stateFaults before s)
      (StatesAdded gen owner handles (before ++ [s])) := by
  obtain ⟨g, index⟩ := acc
  have hkeys : index.keys = before := keys_eq_of_numbered hadded.index
  unfold stateFaults
  by_cases hs : s ∈ before
  · have hcontains : index.contains s = true := by
      rwa [OrderedMap.contains_iff_mem_keys, hkeys]
    rw [if_pos hs]
    show gen.addState gen.schema handles (g, index) s = .error (.duplicateState (shown s))
    simp only [Generator.addState, hcontains, if_true]
    rfl
  · have hcontains : index.contains s = false := by
      rw [← Bool.not_eq_true, OrderedMap.contains_iff_mem_keys, hkeys]
      exact hs
    have hnodes : before.length.toUInt32.toNat + 1 < 2 ^ 32 := by
      rwa [toNat_toUInt32 (Nat.lt_of_succ_lt hfew)]
    obtain rfl : g = gen.graphOf owner before := hadded.graph
    obtain ⟨hnode, hexists⟩ := addNode_of_isolated
      (show (gen.graphOf owner before).adjacency = .isolated before.length.toUInt32 from rfl) hnodes
    have hinstalled := hadded.installed.congr
      (show ({ gen.graphOf owner before with
        adjacency := .isolated (before.length.toUInt32 + 1) } : Graph).nodeCatalog.owner = _
          from rfl)
      rfl rfl rfl
    have hwrite := writeState_eq_ok hinstalled hexists s
    rw [← graphOf_concat] at hwrite
    rw [if_neg hs]
    refine ⟨(gen.graphOf owner (before ++ [s]), index.insert s ⟨before.length.toUInt32⟩), ?_, ?_⟩
    · simp only [Generator.addState, hcontains, Bool.false_eq_true, if_false, hnode,
        CompileError.ofGraph_ok, ok_bind, hwrite]
      rfl
    · have hfresh : s ∉ index.keys := by rwa [hkeys]
      exact {
        distinct := by
          rw [List.nodup_append]
          refine ⟨hadded.distinct, by simp, ?_⟩
          rintro a ha b hb rfl
          exact hs (List.mem_singleton.1 hb ▸ ha)
        index := by
          rw [OrderedMap.toList_insert_of_not_mem hfresh, hadded.index, numbered_concat]
        graph := rfl
        installed := by
          rw [graphOf_concat]
          exact installed_putNodeValues hinstalled _ _ }

/-- All states get their nodes, unless one comes twice. -/
theorem settles_addStates [DecidableEq σ] [ToValue σ] [Shown σ] {owner : Identity}
    (hfew : gen.states.length < 2 ^ 32)
    (hinstalled : gen.schema.Installed handles (gen.schema.blank owner)) :
    Settles (gen.addStates gen.schema handles (gen.schema.blank owner))
      (faultsAlong stateFaults [] gen.states) (StatesAdded gen owner handles gen.states) := by
  refine settles_foldlM (StatesAdded gen owner handles) gen.states
    (fun before s after acc hsplit hadded => ?_) ?_
  · have hlength := congrArg List.length hsplit
    rw [List.length_append, List.length_cons] at hlength
    exact hadded.addState (by omega) s
  · exact {
      distinct := List.nodup_nil
      index := rfl
      graph := rfl
      installed := hinstalled }

/-! ## The number of states -/

section Counting

variable [ToValue σ]

/-- Writing the values of a state leaves nodes and edges as they are. -/
theorem adjacency_writeState {schema : Schema} {handles : SchemaHandles} {s : σ} {n : NodeId}
    {g g' : Graph} (hwrite : gen.writeState schema handles s n g = .ok g') :
    g'.adjacency = g.adjacency := by
  obtain ⟨g₁, hstate, hrest⟩ := bind_eq_ok_iff.1 hwrite
  have hattributes : ∀ {g₂ : Graph},
      writeStateAttributes schema n g₂ (gen.stateAttributes s) = .ok g' →
        g'.adjacency = g₂.adjacency := by
    intro g₂ hattributes
    refine foldlM_keeps (P := fun g => g.adjacency = g₂.adjacency) ?_ _ rfl hattributes
    rintro g ⟨name, v⟩ g' hsame hwrite
    simp only at hwrite
    split at hwrite
    · exact (Graph.adjacency_setNodeValueByName hwrite).trans hsame
    · cases hwrite
      exact hsame
  rw [← Graph.adjacency_setNodeValue hstate]
  simp only at hrest
  split at hrest
  · obtain ⟨g₂, hturn, hrest⟩ := bind_eq_ok_iff.1 hrest
    exact (hattributes hrest).trans (Graph.adjacency_setNodeValue hturn)
  · exact hattributes hrest

variable [DecidableEq σ] [Shown σ]

/-- Each state that is added takes one node. -/
theorem nodeCount_addState {schema : Schema} {handles : SchemaHandles}
    {acc acc' : Graph × OrderedMap σ NodeId} {s : σ}
    (hadd : gen.addState schema handles acc s = .ok acc') :
    acc'.1.nodeCount = acc.1.nodeCount + 1 := by
  obtain ⟨g, index⟩ := acc
  unfold addState at hadd
  simp only at hadd
  split at hadd
  · cases hadd
  · obtain ⟨⟨g₁, n⟩, hnode, hrest⟩ := bind_eq_ok_iff.1 hadd
    obtain ⟨g₂, hwrite, hdone⟩ := bind_eq_ok_iff.1 hrest
    cases hdone
    obtain ⟨a, span, hnodes, rfl, -⟩ := Graph.addNode_eq_ok (CompileError.ofGraph_eq_ok_iff.1 hnode)
    obtain ⟨hfits, rfl, -⟩ := (Adjacency.addNodes_eq_ok_iff _ _ _ _).1 hnodes
    have hsame := adjacency_writeState (CompileError.ofGraph_eq_ok_iff.1 hwrite)
    rw [Graph.nodeCount, hsame]
    exact Adjacency.toNat_nodeCount_add hfits

/-- So there are as many nodes as states. -/
theorem nodeCount_addStates {schema : Schema} {handles : SchemaHandles} (states : List σ)
    {acc acc' : Graph × OrderedMap σ NodeId}
    (hadd : states.foldlM (gen.addState schema handles) acc = .ok acc') :
    acc'.1.nodeCount = acc.1.nodeCount + states.length := by
  induction states generalizing acc with
  | nil =>
    cases hadd
    rfl
  | cons s states ih =>
    rw [List.foldlM_cons] at hadd
    obtain ⟨acc₁, hfirst, hrest⟩ := bind_eq_ok_iff.1 hadd
    rw [ih hrest, nodeCount_addState hfirst, List.length_cons]
    omega

end Counting

end Generator

end StateGraph
