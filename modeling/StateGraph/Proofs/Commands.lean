import StateGraph.Command
import StateGraph.Proofs.Compilation.Answers
import StateGraph.Proofs.Compilation.Bijection
import StateGraph.Proofs.Compilation.Rechecking
import StateGraph.Proofs.Files
import StateGraph.Proofs.Json.Documents

set_option autoImplicit false

/-!
# How commands end

A command goes through stages: it reads options, loads a snapshot, reopens the graph in it, and
does what it is for.  The first stage that fails decides the exit code (`Command.Exits`), and
nothing is printed unless all succeed (`Command.explained_perform`).

The rows that `transitions` prints are the edges that lead out of the node, one by one
(`Command.Reports`).  That each has a state rests on the invariants of graphs that are read from
bytes: edges lead to nodes that exist, and a graph is reopened only if each of them has a state.
What is printed is read again as these rows and as nothing else, whatever the values in them are
(`Command.isTextOf_output`).
-/

namespace StateGraph

theorem ExitStatus.code_eq_zero_iff (status : ExitStatus) :
    status.code = 0 ↔ status = .success := by
  cases status <;> decide

namespace Command

/-! ## Failures -/

/-- A stage fails with a status, and says why. -/
def FailsWith {α : Type} (x : Except Outcome α) (status : ExitStatus) : Prop :=
  ∃ reason, x = .error (.failure status reason)

/-- A stage succeeds, or fails with the status of a failure. -/
def Explained {α : Type} (x : Except Outcome α) : Prop :=
  (∃ a, x = .ok a) ∨ ∃ status, status ≠ .success ∧ FailsWith x status

section Failures

variable {α β ε : Type} {x : Except Outcome α} {status : ExitStatus}

theorem failsWith_failure (status : ExitStatus) (reason : String) :
    FailsWith (.error (.failure status reason) : Except Outcome α) status :=
  ⟨reason, rfl⟩

/-- A chain fails with its first stage. -/
theorem FailsWith.bind (hfails : FailsWith x status) (f : α → Except Outcome β) :
    FailsWith (x >>= f) status := by
  obtain ⟨reason, rfl⟩ := hfails
  exact failsWith_failure status reason

/-- A request without a result ends a chain with the status of its failures. -/
theorem failsWith_mapError {y : Except ε α} (hy : ∀ a, y ≠ .ok a) {f : ε → Outcome}
    (hf : ∀ e, ∃ reason, f e = .failure status reason) : FailsWith (y.mapError f) status := by
  cases y with
  | ok a => exact absurd rfl (hy a)
  | error e =>
    obtain ⟨reason, hreason⟩ := hf e
    exact ⟨reason, congrArg Except.error hreason⟩

theorem explained_ok (a : α) : Explained (.ok a) := .inl ⟨a, rfl⟩

theorem explained_refusal (e : CompileError) : Explained (.error (.refusal e) : Except Outcome α) :=
  .inr ⟨.refused, nofun, failsWith_failure .refused e.message⟩

theorem explained_mapError (status : ExitStatus) (hstatus : status ≠ .success) {f : ε → Outcome}
    (hf : ∀ e, ∃ reason, f e = .failure status reason) (y : Except ε α) :
    Explained (y.mapError f) := by
  cases y with
  | ok a => exact explained_ok a
  | error e => exact .inr ⟨status, hstatus, failsWith_mapError nofun hf⟩

/-- A chain of stages is explained if each of them is. -/
theorem Explained.bind (hx : Explained x) {f : α → Except Outcome β} (hf : ∀ a, Explained (f a)) :
    Explained (x >>= f) := by
  obtain ⟨a, rfl⟩ | ⟨status, hstatus, hfails⟩ := hx
  · exact hf a
  · exact .inr ⟨status, hstatus, hfails.bind f⟩

end Failures

/-! ## Options -/

section Options

variable {files : FileReader} {options : Option FilePath}

/-- The text of a file, if there is one. -/
def textOf? (files : FileReader) (p : FilePath) : Option String :=
  match files p with
  | .ok bytes => ofUtf8? bytes
  | .error _ => none

/-- There is a file of options that cannot be read as text. -/
def Unreadable (files : FileReader) (options : Option FilePath) : Prop :=
  ∃ p ∈ options, textOf? files p = none

/-- There is a file of options whose text does not stand for options. -/
def Invalid (files : FileReader) (options : Option FilePath) : Prop :=
  ∃ p ∈ options, ∃ text, textOf? files p = some text ∧ CompileOptions.ofJson? text = none

/-- The options of a command: those in the file, and the standard ones without a file. -/
def Given (files : FileReader) (options : Option FilePath) (o : CompileOptions) : Prop :=
  (options = none ∧ o = .standard) ∨
    ∃ p ∈ options, ∃ text, textOf? files p = some text ∧ CompileOptions.ofJson? text = some o

/-- The options are unreadable, invalid, or given. -/
theorem options_cases (files : FileReader) (options : Option FilePath) :
    Unreadable files options ∨ Invalid files options ∨ ∃ o, Given files options o := by
  cases options with
  | none => exact .inr (.inr ⟨.standard, .inl ⟨rfl, rfl⟩⟩)
  | some p =>
    cases htext : textOf? files p with
    | none => exact .inl ⟨p, rfl, htext⟩
    | some text =>
      cases hjson : CompileOptions.ofJson? text with
      | none => exact .inr (.inl ⟨p, rfl, text, htext, hjson⟩)
      | some o => exact .inr (.inr ⟨o, .inr ⟨p, rfl, text, htext, hjson⟩⟩)

theorem textOf?_eq_some_iff {p : FilePath} {text : String} :
    textOf? files p = some text ↔ ∃ bytes, files p = .ok bytes ∧ ofUtf8? bytes = some text := by
  unfold textOf?
  cases files p <;> simp

theorem Unreadable.failsWith (hoptions : Unreadable files options) :
    FailsWith (readOptions files options) .unreadable := by
  obtain ⟨p, rfl, htext⟩ := hoptions
  unfold textOf? at htext
  cases hread : files p with
  | error reason =>
    simp only [readOptions, hread]
    exact ⟨_, rfl⟩
  | ok bytes =>
    have hnone : ofUtf8? bytes = none := by rwa [hread] at htext
    simp only [readOptions, hread, Except.mapError, ok_bind, hnone]
    exact ⟨_, rfl⟩

theorem Invalid.failsWith (hoptions : Invalid files options) :
    FailsWith (readOptions files options) .refused := by
  obtain ⟨p, rfl, text, htext, hjson⟩ := hoptions
  obtain ⟨bytes, hread, hutf8⟩ := textOf?_eq_some_iff.1 htext
  simp only [readOptions, hread, Except.mapError, ok_bind, hutf8, hjson]
  exact ⟨_, rfl⟩

theorem Given.readOptions_eq {o : CompileOptions} (hoptions : Given files options o) :
    readOptions files options = .ok o := by
  obtain ⟨rfl, rfl⟩ | ⟨p, rfl, text, htext, hjson⟩ := hoptions
  · rfl
  · obtain ⟨bytes, hread, hutf8⟩ := textOf?_eq_some_iff.1 htext
    simp only [readOptions, hread, Except.mapError, ok_bind, hutf8, hjson]

theorem explained_readOptions (files : FileReader) (options : Option FilePath) :
    Explained (readOptions files options) := by
  obtain hoptions | hoptions | ⟨o, hoptions⟩ := options_cases files options
  · exact .inr ⟨.unreadable, nofun, hoptions.failsWith⟩
  · exact .inr ⟨.refused, nofun, hoptions.failsWith⟩
  · exact .inl ⟨o, hoptions.readOptions_eq⟩

end Options

/-! ## Stages -/

section Stages

variable {files : FileReader} {owner : Identity} {p : FilePath} {c : Command}

theorem loadSnapshot_of_ok {g : Graph} (hload : Graph.load files owner p = .ok g) :
    loadSnapshot files owner p = .ok g :=
  mapError_eq_ok_iff.2 hload

theorem failsWith_loadSnapshot (hload : ∀ g, Graph.load files owner p ≠ .ok g) :
    FailsWith (loadSnapshot files owner p) .unreadable :=
  failsWith_mapError hload fun _ => ⟨_, rfl⟩

theorem explained_loadSnapshot : Explained (loadSnapshot files owner p) :=
  explained_mapError .unreadable nofun (fun _ => ⟨_, rfl⟩) _

theorem loadSystem_of_ok {g : Graph} (hload : Graph.load files owner p = .ok g) :
    loadSystem files owner p = (TransitionSystem.ofGraph g).mapError .refusal := by
  rw [loadSystem, loadSnapshot_of_ok hload]
  rfl

theorem explained_loadSystem : Explained (loadSystem files owner p) :=
  explained_loadSnapshot.bind fun _ =>
    explained_mapError .refused nofun (fun _ => ⟨_, rfl⟩) _

/-- A command succeeds, or fails and says why. -/
theorem explained_perform (files : FileReader) (owner : Identity) (c : Command) :
    Explained (c.perform files owner) := by
  cases c with
  | inspect p => exact explained_loadSnapshot.bind fun g => explained_ok (summary g)
  | transitions p n =>
    refine explained_loadSystem.bind fun t => ?_
    cases t.transitions n with
    | ok ts => exact explained_ok _
    | error e => exact explained_refusal _
  | check p options =>
    refine (explained_readOptions files options).bind fun o => explained_loadSystem.bind fun t => ?_
    cases t.checkDistributions o with
    | ok => exact explained_ok _
    | error e => exact explained_refusal e

theorem code_of_ok {document : Json} (hperform : c.perform files owner = .ok document) :
    (run files owner c).status.code = 0 := by
  rw [run, hperform]
  rfl

theorem code_of_failsWith (status : ExitStatus)
    (hfails : FailsWith (c.perform files owner) status) :
    (run files owner c).status.code = status.code := by
  obtain ⟨reason, hperform⟩ := hfails
  rw [run, hperform]
  rfl

/-- The exit code tells whether a command succeeded. -/
theorem code_eq_zero_iff :
    (run files owner c).status.code = 0 ↔ ∃ document, c.perform files owner = .ok document := by
  constructor
  · intro hcode
    obtain hok | ⟨status, hstatus, hfails⟩ := explained_perform files owner c
    · exact hok
    · rw [code_of_failsWith status hfails, ExitStatus.code_eq_zero_iff] at hcode
      exact absurd hcode hstatus
  · rintro ⟨document, hperform⟩
    exact code_of_ok hperform

/-- A graph that was loaded ends a command for what becomes of it afterwards. -/
theorem failsWith_loadSystem_bind {g : Graph} (hload : Graph.load files owner p = .ok g)
    {use : TransitionSystem Value Value → Except Outcome Json}
    (huse : ∀ t, TransitionSystem.ofGraph g = .ok t → FailsWith (use t) .refused) :
    FailsWith (loadSystem files owner p >>= use) .refused := by
  rw [loadSystem_of_ok hload]
  cases hsystem : TransitionSystem.ofGraph g with
  | error e => exact failsWith_failure .refused e.message
  | ok t => exact huse t hsystem

theorem loadSystem_eq_ok_iff {t : TransitionSystem Value Value} :
    loadSystem files owner p = .ok t ↔
      ∃ g, Graph.load files owner p = .ok g ∧ TransitionSystem.ofGraph g = .ok t := by
  refine bind_eq_ok_iff.trans (exists_congr fun g => ?_)
  rw [loadSnapshot, mapError_eq_ok_iff, mapError_eq_ok_iff]

theorem perform_transitions_eq_ok {n : NodeId} {document : Json}
    (hperform : perform files owner (.transitions p n) = .ok document) :
    ∃ g t ts, Graph.load files owner p = .ok g ∧ TransitionSystem.ofGraph g = .ok t ∧
      t.transitions n = .ok ts ∧ document = .array (ts.map (row t)) := by
  obtain ⟨t, hload, hrest⟩ := bind_eq_ok_iff.1 hperform
  obtain ⟨g, hload, hsystem⟩ := loadSystem_eq_ok_iff.1 hload
  cases hts : t.transitions n with
  | error e =>
    rw [hts] at hrest
    cases hrest
  | ok ts =>
    rw [hts] at hrest
    cases hrest
    exact ⟨g, t, ts, hload, hsystem, hts, rfl⟩

end Stages

/-! ## Rows -/

/-- The probability that a row reports of an edge: what is read on it in systems with
distributions, if it is one, and nothing in other systems. -/
def Weighs {σ α : Type} (t : TransitionSystem σ α) (e : EdgeId) (probability : Option Binary64) :
    Prop :=
  if t.branching.isWeighted then ∃ v, t.graph.edgeValueByName Schema.probName e = .ok v ∧
    probability = TransitionSystem.probability? v
  else probability = none

/-- A row reports an edge: its target and key, what is read on it, and the state of its target. -/
inductive Reports (t : TransitionSystem Value Value) (e : EdgeId) : Json → Prop where
  | row {action state : Value} {probability : Option Binary64}
      (action_eq : t.graph.edgeValueByName Schema.actionName e = .ok action)
      (weighs : Weighs t e probability)
      (state_eq : t.graph.nodeValueByName Schema.stateName e.target = .ok state)
      (known : t.stateOf? e.target = some state) :
      Reports t e (.object [
        ("action", action.toJson),
        ("key", .int e.key.toNat),
        ("probability", (probability.map Json.ofBinary64).getD .null),
        ("state", state.toJson),
        ("target", .int e.target.index.toNat)])

/-- The members of a row stand in the order of their names. -/
theorem row_eq (t : TransitionSystem Value Value) (tr : Transition) {state : Value}
    (hstate : t.stateOf? tr.target = some state) :
    row t tr = .object [
      ("action", tr.action.toJson),
      ("key", .int tr.key.toNat),
      ("probability", (tr.probability.map Json.ofBinary64).getD .null),
      ("state", state.toJson),
      ("target", .int tr.target.index.toNat)] := by
  have hkey : ¬ "key" < "action" := by decide
  have hfirst : "probability" < "state" ∧ "action" < "probability" ∧ "key" < "probability" :=
    by decide
  have hlast : ¬ "target" < "action" ∧ ¬ "target" < "key" ∧ ¬ "target" < "probability" ∧
      ¬ "target" < "state" := by decide
  rw [row, hstate]
  simp only [Json.sortedObject, List.foldr, Json.insertMember, hkey, hfirst, hlast, if_true,
    if_false, Option.map_some, Option.getD_some, NodeId.toJson]

/-- A transition of an edge is reported as what is read on the edge. -/
theorem reports_row {t : TransitionSystem Value Value} {action : Property EdgeId}
    {prob : Option (Property EdgeId)}
    (haction : t.graph.edgeCatalog.byName Schema.actionName = .ok action)
    (hprob : t.probProperty = .ok prob) {e : EdgeId} (he : t.graph.hasEdge e = true) {state : Value}
    (hstate : t.graph.nodeValueByName Schema.stateName e.target = .ok state)
    (hknown : t.stateOf? e.target = some state) :
    Reports t e (row t (TransitionSystem.transitionOf action prob e)) := by
  rw [row_eq t (TransitionSystem.transitionOf action prob e) hknown]
  refine .row (Catalog.readByName_of_byName haction he) ?_ hstate hknown
  unfold TransitionSystem.probProperty at hprob
  unfold Weighs
  split at hprob
  · rename_i hweighted
    obtain ⟨p, hp, rfl⟩ := map_eq_ok_iff.1 hprob
    rw [if_pos hweighted]
    exact ⟨_, Catalog.readByName_of_byName hp he, rfl⟩
  · rename_i hweighted
    cases hprob
    rw [if_neg hweighted]
    rfl

/-- The rows are the edges, in order. -/
theorem forall₂_reports {t : TransitionSystem Value Value} {g : Graph}
    (hsystem : TransitionSystem.ofGraph g = .ok t) (hsound : g.adjacency.Sound) {n : NodeId}
    {ts : List Transition} (hts : t.transitions n = .ok ts) :
    List.Forall₂ (Reports t) (g.outEdges n) (ts.map (row t)) := by
  have hreopens := TransitionSystem.reopens_of_graph g
  have hmetadata := (hreopens.accepted.1 ⟨t, hsystem⟩).1
  have hgraph := hreopens.same t hsystem
  obtain ⟨hnone, rfl⟩ | ⟨action, prob, haction, hprob, rfl⟩ :=
    TransitionSystem.transitions_eq_ok hts
  · rw [← hgraph, hnone]
    exact .nil
  · rw [hgraph, List.map_map, List.forall₂_map_right_iff, List.forall₂_same]
    intro e hmem
    have he := ((Adjacency.mem_outEdges_iff g.adjacency n e).1 hmem).1
    -- the target exists, since an edge of a graph from a file joins nodes of the graph
    have htarget := (hsound.endpoints_of_mem_edges ((Adjacency.mem_edges_iff _ e).2 he)).2
    have hread := hreopens.read hmetadata e.target htarget
    have hknown := hreopens.stateOf t hsystem e.target htarget
    exact reports_row haction hprob (hgraph.symm ▸ he) (hgraph.symm ▸ hread) hknown

/-! ## What is printed -/

section Printed

theorem isFinite_ofBinary64 (x : Binary64) : (Json.ofBinary64 x).IsFinite := by
  unfold Json.ofBinary64
  split
  · exact .float ‹_›
  · exact .null

mutual

/-- The plain document of a value has no number that is not finite. -/
theorem isFinite_toJson : ∀ v : Value, v.toJson.IsFinite
  | .null => .null
  | .bool b => .bool b
  | .int n => .int n.toInt
  | .float x => isFinite_ofBinary64 x
  | .text s => .string s
  | .list items => .array (isFinite_of_mem_toJsonItems items)
  | .labels _ => .array (List.forall_mem_map.2 fun label _ => .string label)

theorem isFinite_of_mem_toJsonItems :
    ∀ items : List Value, ∀ j ∈ Value.toJsonItems items, j.IsFinite
  | [], _, hj => absurd hj List.not_mem_nil
  | v :: rest, j, hj =>
    (List.mem_cons.1 hj).elim (fun heq => heq ▸ isFinite_toJson v)
      (isFinite_of_mem_toJsonItems rest j)

end

theorem mem_insertMember {m m' : String × Json} {members : List (String × Json)} :
    m' ∈ Json.insertMember m members ↔ m' = m ∨ m' ∈ members := by
  induction members with
  | nil => exact List.mem_cons
  | cons e rest ih =>
    rw [Json.insertMember]
    split
    · exact List.mem_cons
    · rw [List.mem_cons, ih, List.mem_cons, or_left_comm]

theorem isFinite_sortedObject {members : List (String × Json)}
    (hmembers : ∀ m ∈ members, m.2.IsFinite) : (Json.sortedObject members).IsFinite := by
  refine .object ?_
  induction members with
  | nil => exact nofun
  | cons m members ih =>
    intro m' hm'
    obtain rfl | hm' := mem_insertMember.1 hm'
    · exact hmembers m' List.mem_cons_self
    · exact ih (fun m hm => hmembers m (List.mem_cons_of_mem _ hm)) m' hm'

theorem isFinite_summary (g : Graph) : (summary g).IsFinite := by
  have hstrings : ∀ names : List String, (Json.array (names.map .string)).IsFinite :=
    fun names => .array (List.forall_mem_map.2 fun name _ => .string name)
  refine isFinite_sortedObject ?_
  simp only [List.forall_mem_cons]
  refine ⟨.int _, .int _, hstrings _, hstrings _, isFinite_sortedObject ?_, nofun⟩
  exact List.forall_mem_map.2 fun entry _ => isFinite_toJson entry.2

theorem isFinite_row (t : TransitionSystem Value Value) (transition : Transition) :
    (row t transition).IsFinite := by
  have hprobability : ((transition.probability.map Json.ofBinary64).getD .null).IsFinite := by
    cases transition.probability with
    | none => exact .null
    | some x => exact isFinite_ofBinary64 x
  have hstate : (((t.stateOf? transition.target).map Value.toJson).getD .null).IsFinite := by
    cases t.stateOf? transition.target with
    | none => exact .null
    | some state => exact isFinite_toJson state
  refine isFinite_sortedObject ?_
  simp only [List.forall_mem_cons]
  exact ⟨.int _, .int _, isFinite_toJson _, hprobability, hstate, nofun⟩

theorem isFinite_approval (t : TransitionSystem Value Value) (o : CompileOptions) :
    (approval t o).IsFinite := by
  refine isFinite_sortedObject ?_
  simp only [List.forall_mem_cons]
  exact ⟨.bool true, .string _, isFinite_ofBinary64 _, nofun⟩

variable {files : FileReader} {owner : Identity} {c : Command} {document : Json}

/-- What a command makes can be written as JSON. -/
theorem isFinite_of_perform (hperform : c.perform files owner = .ok document) :
    document.IsFinite := by
  cases c with
  | inspect p =>
    obtain ⟨g, -, hdone⟩ := bind_eq_ok_iff.1 hperform
    cases hdone
    exact isFinite_summary g
  | transitions p n =>
    obtain ⟨-, t, ts, -, -, -, rfl⟩ := perform_transitions_eq_ok hperform
    exact .array (List.forall_mem_map.2 fun transition _ => isFinite_row t transition)
  | check p options =>
    obtain ⟨o, -, hrest⟩ := bind_eq_ok_iff.1 hperform
    obtain ⟨t, -, hrest⟩ := bind_eq_ok_iff.1 hrest
    cases hcheck : t.checkDistributions o with
    | error e =>
      rw [hcheck] at hrest
      cases hrest
    | ok =>
      rw [hcheck] at hrest
      cases hrest
      exact isFinite_approval t o

/-- What a command prints is read as what it made, and as nothing else. -/
theorem isTextOf_output (hperform : c.perform files owner = .ok document) (document' : Json) :
    Json.IsTextOf (run files owner c).output document' ↔ document' = document := by
  have houtput : (run files owner c).output = document.pretty ++ "\n" := by
    rw [run, hperform]
    rfl
  rw [houtput]
  exact Json.isTextOf_iff (isFinite_of_perform hperform) (by simp [JsonTree.isBlank]) document'

end Printed

/-! ## Exit codes -/

/-- How commands end, stage by stage. -/
structure Exits (files : FileReader) (owner : Identity) : Prop where
  inspect_unloaded : ∀ p, (∀ g, Graph.load files owner p ≠ .ok g) →
    (run files owner (.inspect p)).status.code = 3
  inspect_done : ∀ p g, Graph.load files owner p = .ok g →
    (run files owner (.inspect p)).status.code = 0
  transitions_unloaded : ∀ p n, (∀ g, Graph.load files owner p ≠ .ok g) →
    (run files owner (.transitions p n)).status.code = 3
  transitions_refused : ∀ p n g, Graph.load files owner p = .ok g →
    (∀ t ts, TransitionSystem.ofGraph g = .ok t → t.transitions n ≠ .ok ts) →
    (run files owner (.transitions p n)).status.code = 1
  transitions_done : ∀ p n g t ts, Graph.load files owner p = .ok g →
    TransitionSystem.ofGraph g = .ok t → t.transitions n = .ok ts →
    (run files owner (.transitions p n)).status.code = 0
  /-- options come first, and are in one of three cases -/
  options : ∀ options, Unreadable files options ∨ Invalid files options ∨ ∃ o, Given files options o
  check_unreadable : ∀ p options, Unreadable files options →
    (run files owner (.check p options)).status.code = 3
  check_invalid : ∀ p options, Invalid files options →
    (run files owner (.check p options)).status.code = 1
  check_unloaded : ∀ p options o, Given files options o → (∀ g, Graph.load files owner p ≠ .ok g) →
    (run files owner (.check p options)).status.code = 3
  check_refused : ∀ p options o g, Given files options o → Graph.load files owner p = .ok g →
    (∀ t, TransitionSystem.ofGraph g = .ok t → t.checkDistributions o ≠ .ok ()) →
    (run files owner (.check p options)).status.code = 1
  check_done : ∀ p options o g t, Given files options o → Graph.load files owner p = .ok g →
    TransitionSystem.ofGraph g = .ok t → t.checkDistributions o = .ok () →
    (run files owner (.check p options)).status.code = 0
  /-- options that make no sense are refused like distributions -/
  tolerance : ∀ o (t : TransitionSystem Value Value), o.isValid = false →
    t.checkDistributions o ≠ .ok ()
  /-- a command that fails prints nothing but the reason -/
  quiet : ∀ c, (run files owner c).status.code ≠ 0 → (run files owner c).output = "" ∧
    ∃ reason, (run files owner c).errors = "Error: " ++ reason ++ "\n"
  /-- what is printed are rows, and can be read again as these rows only; they report the edges
  that lead out of the node -/
  rows : ∀ p n, (run files owner (.transitions p n)).status.code = 0 →
    ∃ g t rows, Graph.load files owner p = .ok g ∧ TransitionSystem.ofGraph g = .ok t ∧
      t.graph = g ∧ (run files owner (.transitions p n)).output = (Json.array rows).pretty ++ "\n" ∧
      (∀ document, Json.IsTextOf (run files owner (.transitions p n)).output document ↔
        document = .array rows) ∧
      List.Forall₂ (Reports t) (g.outEdges n) rows

/-- Commands end as they should, whatever the files are. -/
theorem exits (files : FileReader) (owner : Identity) : Exits files owner where
  inspect_unloaded p hload :=
    code_of_failsWith .unreadable ((failsWith_loadSnapshot hload).bind _)
  inspect_done p g hload := by
    have hperform : perform files owner (.inspect p) = .ok (summary g) := by
      rw [perform, loadSnapshot_of_ok hload]
      rfl
    exact code_of_ok hperform
  transitions_unloaded p n hload :=
    code_of_failsWith .unreadable (((failsWith_loadSnapshot hload).bind _).bind _)
  transitions_refused p n g hload hrefused := by
    refine code_of_failsWith .refused ?_
    refine failsWith_loadSystem_bind hload fun t hsystem => ?_
    cases hts : t.transitions n with
    | ok ts => exact absurd hts (hrefused t ts hsystem)
    | error e => exact failsWith_failure .refused _
  transitions_done p n g t ts hload hsystem hts := by
    have hperform : perform files owner (.transitions p n) = .ok (.array (ts.map (row t))) := by
      rw [perform, loadSystem_eq_ok_iff.2 ⟨g, hload, hsystem⟩, ok_bind, hts]
      rfl
    exact code_of_ok hperform
  options := options_cases files
  check_unreadable p options hoptions :=
    code_of_failsWith .unreadable (hoptions.failsWith.bind _)
  check_invalid p options hoptions :=
    code_of_failsWith .refused (hoptions.failsWith.bind _)
  check_unloaded p options o hoptions hload := by
    refine code_of_failsWith .unreadable ?_
    rw [perform, hoptions.readOptions_eq, ok_bind]
    exact ((failsWith_loadSnapshot hload).bind _).bind _
  check_refused p options o g hoptions hload hrefused := by
    refine code_of_failsWith .refused ?_
    rw [perform, hoptions.readOptions_eq, ok_bind]
    refine failsWith_loadSystem_bind hload fun t hsystem => ?_
    cases hcheck : t.checkDistributions o with
    | ok => exact absurd hcheck (hrefused t hsystem)
    | error e => exact failsWith_failure .refused _
  check_done p options o g t hoptions hload hsystem hcheck := by
    have hperform : perform files owner (.check p options) = .ok (approval t o) := by
      rw [perform, hoptions.readOptions_eq, ok_bind, loadSystem_eq_ok_iff.2 ⟨g, hload, hsystem⟩,
        ok_bind, hcheck]
      rfl
    exact code_of_ok hperform
  tolerance o t hinvalid hcheck := by
    rw [TransitionSystem.isValid_of_checkDistributions hcheck] at hinvalid
    cases hinvalid
  quiet c hcode := by
    obtain ⟨document, hperform⟩ | ⟨status, -, reason, hperform⟩ := explained_perform files owner c
    · exact absurd (code_of_ok hperform) hcode
    · rw [run, hperform]
      exact ⟨rfl, reason, rfl⟩
  rows p n hcode := by
    obtain ⟨document, hperform⟩ := code_eq_zero_iff.1 hcode
    obtain ⟨g, t, ts, hload, hsystem, hts, rfl⟩ := perform_transitions_eq_ok hperform
    obtain ⟨-, bytes, -, hdecode⟩ := (Graph.load_eq_ok_iff files owner p g).1 hload
    have hsound := (Graph.Origin.bytes hdecode).wellFormed.adjacency.toSound
    have hgraph := (TransitionSystem.reopens_of_graph g).same t hsystem
    refine ⟨g, t, ts.map (row t), hload, hsystem, hgraph, ?_, isTextOf_output hperform,
      forall₂_reports hsystem hsound hts⟩
    rw [run, hperform]
    rfl

section Door

open TransitionSystem (kindName turnBasedName actionsName)

/-- A door that opens half of the times that it is pushed, and stays open. -/
def door : Graph :=
  (Graph.empty ⟨0⟩).run
    [.setAttribute kindName (.text "quantitative"), .setAttribute turnBasedName (.bool false),
      .setAttribute actionsName (.list [.text "push"]),
      .declareNodeProperty Schema.stateName .null,
      .declareEdgeProperty Schema.actionName (.text "push"),
      .declareEdgeProperty Schema.probName (.float .one),
      .addNodeWith [(Schema.stateName, .text "shut")],
      .addNodeWith [(Schema.stateName, .text "open")],
      .addEdgeWith ⟨0⟩ ⟨1⟩ [(Schema.probName, .float ⟨0x3FE0000000000000⟩)],
      .addEdgeWith ⟨0⟩ ⟨0⟩ [(Schema.probName, .float ⟨0x3FE0000000000000⟩)], .addEdge ⟨1⟩ ⟨1⟩]

/-- Files of which there is one, with the door. -/
def doorFile : FileReader := fun p =>
  if p = .ofString "door.graph" then .ok (Snapshot.encode door) else .error "No such file"

/-- What is asked of the door while it is shut. -/
def push : Command := .transitions (.ofString "door.graph") ⟨0⟩

theorem load_door : Graph.load doorFile ⟨1⟩ (.ofString "door.graph") =
    (Snapshot.ofGraph door).toGraph ⟨1⟩ := by
  have hext : (FilePath.ofString "door.graph").HasExtension "graph" :=
    (FilePath.extension?_eq_some_iff _ (by decide) (by decide)).1 (by decide)
  exact Graph.load_of_encode hext (if_pos rfl) (by decide +kernel) ⟨1⟩

theorem exits_door :
    (run doorFile ⟨1⟩ push).status.code = 0 ∧
    (run doorFile ⟨1⟩ push).output =
      "[\n  \x7b\n    \"action\": \"push\",\n    \"key\": 0,\n    \"probability\": 0.5,\n" ++
      "    \"state\": \"open\",\n    \"target\": 1\n  \x7d,\n" ++
      "  \x7b\n    \"action\": \"push\",\n    \"key\": 0,\n    \"probability\": 0.5,\n" ++
      "    \"state\": \"shut\",\n    \"target\": 0\n  \x7d\n]\n" ∧
    ∃ g t rows, Graph.load doorFile ⟨1⟩ (.ofString "door.graph") = .ok g ∧
      TransitionSystem.ofGraph g = .ok t ∧ g.outEdges ⟨0⟩ = [⟨⟨0⟩, ⟨1⟩, 0⟩, ⟨⟨0⟩, ⟨0⟩, 0⟩] ∧
      List.Forall₂ (Reports t) (g.outEdges ⟨0⟩) rows ∧
      ∀ document, Json.IsTextOf (run doorFile ⟨1⟩ push).output document ↔
        document = .array rows := by
  have hcode : (run doorFile ⟨1⟩ push).status.code = 0 := by
    rw [push, run, perform, loadSystem, loadSnapshot, load_door]
    decide +kernel
  obtain ⟨g', hg', hedges⟩ : ∃ g, (Snapshot.ofGraph door).toGraph ⟨1⟩ = .ok g ∧
      g.outEdges ⟨0⟩ = [⟨⟨0⟩, ⟨1⟩, 0⟩, ⟨⟨0⟩, ⟨0⟩, 0⟩] := exists_eq_ok_of_test (by decide +kernel)
  obtain ⟨g, t, rows, hload, hsystem, -, -, htext, hrows⟩ :=
    (exits doorFile ⟨1⟩).rows (.ofString "door.graph") ⟨0⟩ hcode
  cases hg'.symm.trans (load_door.symm.trans hload)
  refine ⟨hcode, ?_, g', t, rows, hload, hsystem, hedges, hrows, htext⟩
  rw [push, run, perform, loadSystem, loadSnapshot, load_door]
  decide +kernel

end Door

/-- What is wrong with the options is said before the snapshot is looked for. -/
example :
    (run (fun p => if p = .ofString "o.json" then .ok (utf8 "[") else .error "No such file") ⟨0⟩
      (.check (.ofString "g.graph") (some (.ofString "o.json")))).status.code = 1 := by
  decide +kernel

end Command

end StateGraph
