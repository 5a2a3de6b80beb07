import StateGraph.Proofs.Handles
import StateGraph.Proofs.Reads

set_option autoImplicit false

/-!
# Sessions

A session holds any number of graphs and tables of properties, each in a place of its own.
Its steps make new ones, clear them, copy them from place to place, and put requests to
them.  Whatever is made or cleared gets an identity from the one supply of the session; a
copy has the identity of what it is copied from.  Lookups and reads change nothing, so they
are no steps; they can be made at any time.

`Session.sourceOf` tells from where a step took what a place holds.  For whole runs it gives
the place from which something has come down (`Session.ancestor?`) and the step that made it
(`Session.birth?`).
-/

namespace StateGraph

/-! ## Requests to tables -/

/-- A request to change a table of properties.  Which elements exist is known to the one who
asks. -/
inductive TableRequest (ε : Type) where
  | declare (name : String) (default : Value)
  | file (p : Property ε)
  | write (exists? : ε → Bool) (h : Handle ε) (e : ε) (v : Value)
  | writeByName (exists? : ε → Bool) (name : String) (e : ε) (v : Value)
  | overwrite (h : Handle ε) (p : Property ε)
  | overwriteByName (name : String) (p : Property ε)

namespace TableRequest

variable {ε : Type}

/-- The handle through which a request writes. -/
def used? : TableRequest ε → Option (Handle ε)
  | .write _ h _ _ => some h
  | .overwrite h _ => some h
  | _ => none

/-- The name for which a request gives out a handle. -/
def named? : TableRequest ε → Option String
  | .declare name _ => some name
  | .file p => some p.name
  | _ => none

variable [DecidableEq ε] [Element ε]

/-- The table after a request, and the reply; `given` is the reply that gives out a handle. -/
def perform (given : Handle ε → Reply) (c : Catalog ε) :
    TableRequest ε → Except GraphError (Catalog ε × Reply)
  | .declare name default => .ok ((c.declare name default).1, given (c.declare name default).2)
  | .file p => .ok ((c.file p).1, given (c.file p).2)
  | .write exists? h e v => (c.write exists? h e v).map fun (c, former) => (c, .previous former)
  | .writeByName exists? name e v =>
    (c.writeByName exists? name e v).map fun (c, former) => (c, .previous former)
  | .overwrite h p => (c.overwrite h p).map fun c => (c, .done)
  | .overwriteByName name p => (c.overwriteByName name p).map fun c => (c, .done)

variable {given : Handle ε → Reply}

theorem growsInto_of_perform {c d : Catalog ε} {r : TableRequest ε} {reply : Reply}
    (hperform : r.perform given c = .ok (d, reply)) : c.GrowsInto d := by
  cases r with
  | declare name default =>
    cases hperform
    exact c.growsInto_declare name default
  | file p =>
    cases hperform
    exact c.growsInto_replace p.name p
  | write exists? h e v =>
    obtain ⟨⟨f, former⟩, hwrite, hdone⟩ := map_eq_ok_iff.1 hperform
    cases hdone
    obtain ⟨name, p, -, -, rfl⟩ := Catalog.write_eq_ok hwrite
    exact c.growsInto_replace name _
  | writeByName exists? name e v =>
    obtain ⟨⟨f, former⟩, hwrite, hdone⟩ := map_eq_ok_iff.1 hperform
    cases hdone
    obtain ⟨p, -, -, rfl⟩ := Catalog.writeByName_eq_ok hwrite
    exact c.growsInto_replace name _
  | overwrite h p =>
    obtain ⟨f, hput, hdone⟩ := map_eq_ok_iff.1 hperform
    cases hdone
    obtain ⟨name, rfl⟩ := Catalog.overwrite_eq_ok hput
    exact c.growsInto_replace name p
  | overwriteByName name p =>
    obtain ⟨f, hput, hdone⟩ := map_eq_ok_iff.1 hperform
    cases hdone
    rw [Catalog.overwriteByName_eq_ok hput]
    exact c.growsInto_replace name p

/-- A request that asks for the handle of a name gets it. -/
theorem handle?_of_perform {c d : Catalog ε} {r : TableRequest ε} {reply : Reply}
    (hperform : r.perform given c = .ok (d, reply)) {name : String}
    (hname : r.named? = some name) : ∃ h, reply = given h ∧ d.handle? name = some h := by
  cases r with
  | declare other default =>
    cases hname
    cases hperform
    exact ⟨_, rfl, c.handle?_declare name default⟩
  | file p =>
    cases hname
    cases hperform
    exact ⟨_, rfl, c.handle?_file p⟩
  | _ => cases hname

/-- A table that turns away a handle leaves all requests through it undone. -/
theorem perform_of_rejects {c : Catalog ε} {h : Handle ε} (hrejects : c.Rejects h)
    {r : TableRequest ε} (hused : r.used? = some h) :
    r.perform given c = .error (.unknownHandle (Element.kind ε) h.index) := by
  cases r with
  | write exists? other e v =>
    cases hused
    rw [perform, hrejects.written]
    rfl
  | overwrite other p =>
    cases hused
    rw [perform, hrejects.overwritten]
    rfl
  | declare name default => cases hused
  | file p => cases hused
  | writeByName exists? name e v => cases hused
  | overwriteByName name p => cases hused

end TableRequest

/-! ## What is held -/

/-- What a place can hold. -/
inductive Holding where
  | graph (g : Graph)
  | nodeTable (c : Catalog NodeId)
  | edgeTable (c : Catalog EdgeId)

/-- Why a step fails. -/
inductive StepFault where
  | graph (e : GraphError)
  | snapshot (e : SnapshotError)
  /-- a key of an edge has no successor, and the program stops -/
  | overflow
  /-- the place holds nothing of the kind that the step is about -/
  | unfit

/-- How a step fails whose request to a graph fails. -/
def StepFault.ofFault : Fault GraphError → StepFault
  | .refused e => .graph e
  | .overflow => .overflow

/-- The same kind of holding, empty and with the given identity. -/
def Holding.cleared (owner : Identity) : Holding → Holding
  | .graph _ => .graph (.empty owner)
  | .nodeTable _ => .nodeTable (.empty owner)
  | .edgeTable _ => .edgeTable (.empty owner)

/-- A way to make something new. -/
inductive Making where
  | graph
  | nodeTable
  | edgeTable
  /-- a graph made of parts, whatever they are -/
  | parts (nodeCount : UInt32) (entries : List (NodeId × NodeId × UInt32))
      (nodeProperties : List (Property NodeId)) (edgeProperties : List (Property EdgeId))
      (attributes : Attributes)
  /-- a graph read from bytes, whatever they are and whatever the checksum is -/
  | bytes (digest : Bytes → Digest) (bs : Bytes)

/-- Makes something new with the given identity. -/
def Making.build (owner : Identity) : Making → Except StepFault Holding
  | .graph => .ok (.graph (.empty owner))
  | .nodeTable => .ok (.nodeTable (.empty owner))
  | .edgeTable => .ok (.edgeTable (.empty owner))
  | .parts nodeCount entries nodeProperties edgeProperties attributes =>
    ((Graph.ofParts owner nodeCount entries nodeProperties edgeProperties attributes).mapError
      .graph).map .graph
  | .bytes digest bs => ((Snapshot.decodeWith digest owner bs).mapError .snapshot).map .graph

/-- A request to what a place holds.  A graph is not cleared by a request of its own but by
a step, which knows the supply of identities. -/
inductive Call where
  | graph (r : Request) (keeps : r.resets = false)
  | nodeTable (r : TableRequest NodeId)
  | edgeTable (r : TableRequest EdgeId)

namespace Call

/-- What is held after a call, and the reply. -/
def perform : Call → Holding → Except StepFault (Holding × Reply)
  | .graph r _, .graph g =>
    ((r.perform g).mapError .ofFault).map fun (g, reply) => (.graph g, reply)
  | .nodeTable r, .nodeTable c =>
    ((r.perform .nodeHandle c).mapError .graph).map fun (c, reply) => (.nodeTable c, reply)
  | .edgeTable r, .edgeTable c =>
    ((r.perform .edgeHandle c).mapError .graph).map fun (c, reply) => (.edgeTable c, reply)
  | _, _ => .error .unfit

/-- What is carried out of a call: all of it, unless it overflows. -/
def carriedOut (x : Holding) : Call → Call
  | .graph r keeps =>
    match x with
    | .graph g => .graph (r.carriedOut g) ((r.resets_carriedOut g).trans keeps)
    | _ => .graph r keeps
  | .nodeTable r => .nodeTable r
  | .edgeTable r => .edgeTable r

/-- The name for which a call gives out a handle. -/
def named? : Call → Option String
  | .graph (.declareNodeProperty name _) _ => some name
  | .graph (.declareEdgeProperty name _) _ => some name
  | .graph _ _ => none
  | .nodeTable r => r.named?
  | .edgeTable r => r.named?

/-- What does not overflow is carried out as it is. -/
theorem carriedOut_of_ne_overflow {x : Holding} {r : Call}
    (hperform : r.perform x ≠ .error .overflow) : r.carriedOut x = r := by
  cases r with
  | nodeTable q => rfl
  | edgeTable q => rfl
  | graph q keeps =>
    cases x with
    | nodeTable c => rfl
    | edgeTable c => rfl
    | graph g =>
      have hrequest : q.carriedOut g = q := by
        refine Request.carriedOut_of_ne_overflow fun hoverflow => hperform ?_
        rw [perform, hoverflow]
        rfl
      simp only [carriedOut, hrequest]

/-- A request that every graph of the place refuses makes the call fail. -/
theorem perform_graph_of_refused {x : Holding} {q : Request} {keeps : q.resets = false}
    {e : GraphError} (hrefused : ∀ g, x = .graph g → q.perform g = .error (.refused e)) :
    (Call.graph q keeps).perform x = .error (.graph e) ∨
      (Call.graph q keeps).perform x = .error .unfit := by
  cases x with
  | graph g =>
    refine .inl ?_
    rw [perform, hrefused g rfl]
    rfl
  | nodeTable c => exact .inr rfl
  | edgeTable c => exact .inr rfl

theorem perform_nodeTable_of_refused {x : Holding} {q : TableRequest NodeId} {e : GraphError}
    (hrefused : ∀ c, x = .nodeTable c → q.perform .nodeHandle c = .error e) :
    (Call.nodeTable q).perform x = .error (.graph e) ∨
      (Call.nodeTable q).perform x = .error .unfit := by
  cases x with
  | graph g => exact .inr rfl
  | nodeTable c =>
    refine .inl ?_
    rw [perform, hrefused c rfl]
    rfl
  | edgeTable c => exact .inr rfl

theorem perform_edgeTable_of_refused {x : Holding} {q : TableRequest EdgeId} {e : GraphError}
    (hrefused : ∀ c, x = .edgeTable c → q.perform .edgeHandle c = .error e) :
    (Call.edgeTable q).perform x = .error (.graph e) ∨
      (Call.edgeTable q).perform x = .error .unfit := by
  cases x with
  | graph g => exact .inr rfl
  | nodeTable c => exact .inr rfl
  | edgeTable c =>
    refine .inl ?_
    rw [perform, hrefused c rfl]
    rfl

end Call

/-! ## Steps -/

/-- Graphs and tables in their places, and the identities that are left. -/
structure Session where
  supply : Supply
  held : Nat → Option Holding

/-- A step of a session. -/
inductive Step where
  /-- makes something new; what the place held is lost -/
  | make (place : Nat) (m : Making)
  /-- starts again from the empty graph or table -/
  | clear (place : Nat)
  /-- copies what a place holds to another place; what that held is lost -/
  | copy (origin place : Nat)
  | call (place : Nat) (r : Call)

/-- From where a step that succeeds takes what a place then holds; nothing is taken from
anywhere for what is new. -/
def Step.source? (q : Nat) : Step → Option Nat
  | .make p _ => if q = p then none else some q
  | .clear p => if q = p then none else some q
  | .copy origin p => if q = p then some origin else some q
  | .call _ _ => some q

namespace Session

/-- The session that holds nothing. -/
def blank (supply : Supply) : Session := ⟨supply, fun _ => none⟩

/-- What a place holds. -/
def get (w : Session) (p : Nat) : Except StepFault Holding :=
  match w.held p with
  | some x => .ok x
  | none => .error .unfit

/-- Puts something in a place. -/
def put (w : Session) (p : Nat) (x : Holding) : Session :=
  { w with held := fun q => if q = p then some x else w.held q }

/-- Puts something in a place that has got the next identity. -/
def putNew (w : Session) (p : Nat) (x : Holding) : Session :=
  { w.put p x with supply := w.supply.take.2 }

end Session

/-- The session after a step, and the reply. -/
def Step.perform (w : Session) : Step → Except StepFault (Session × Reply)
  | .make p m => (m.build w.supply.take.1).map fun x => (w.putNew p x, .done)
  | .clear p => (w.get p).map fun x => (w.putNew p (x.cleared w.supply.take.1), .done)
  | .copy origin p => (w.get origin).map fun x => (w.put p x, .done)
  | .call p r => do
    let x ← w.get p
    let (y, reply) ← r.perform x
    return (w.put p y, reply)

/-- What is carried out of a step: all of it, unless it overflows. -/
def Step.carriedOut (w : Session) : Step → Step
  | .call p r =>
    match w.held p with
    | some x => .call p (r.carriedOut x)
    | none => .call p r
  | step => step

/-- The session after a step.  A step that fails leaves the session as it is, and one that
overflows leaves what is carried out of it. -/
def Step.apply (w : Session) (step : Step) : Session :=
  match (step.carriedOut w).perform w with
  | .ok (w', _) => w'
  | .error _ => w

namespace Session

/-- The session after a run of steps. -/
def run (w : Session) (steps : List Step) : Session := steps.foldl Step.apply w

theorem run_append (w : Session) (before after : List Step) :
    w.run (before ++ after) = (w.run before).run after :=
  List.foldl_append

/-! ## Descent -/

/-- The place from which a step takes what a place then holds; a step that fails leaves
everything where it is. -/
def sourceOf (w : Session) (step : Step) (q : Nat) : Option Nat :=
  match (step.carriedOut w).perform w with
  | .ok _ => step.source? q
  | .error _ => some q

/-- The place that held, before a run, what has become of it or of a copy of it in the given
place at the end.  There is none if it was made or cleared in between. -/
def ancestor? (w : Session) : List Step → Nat → Option Nat
  | [], q => some q
  | step :: steps, q => ((step.apply w).ancestor? steps q).bind (w.sourceOf step)

/-- The numbers of the steps that made what the places hold after a step, given those before
it and the number of the step. -/
def birthsAfter (w : Session) (births : Nat → Option Nat) (number : Nat) (step : Step) :
    Nat → Option Nat := fun q =>
  match w.sourceOf step q with
  | some p => births p
  | none => some number

/-- The numbers of the steps that made what the places hold at the end of a run, given those
at its beginning and the number of its first step. -/
def birthsFrom (w : Session) (births : Nat → Option Nat) (number : Nat) :
    List Step → Nat → Option Nat
  | [] => births
  | step :: steps =>
    (step.apply w).birthsFrom (w.birthsAfter births number step) (number + 1) steps

/-- The number of the step that made, or cleared, what a place holds at the end of a run from
the blank session, or that of which it is a copy. -/
def birth? (supply : Supply) (steps : List Step) : Nat → Option Nat :=
  (blank supply).birthsFrom (fun _ => none) 0 steps

theorem birthsFrom_append (before after : List Step) (w : Session) (births : Nat → Option Nat)
    (number : Nat) :
    w.birthsFrom births number (before ++ after) =
      (w.run before).birthsFrom (w.birthsFrom births number before) (number + before.length)
        after := by
  induction before generalizing w births number with
  | nil => rfl
  | cons step before ih =>
    rw [List.cons_append, birthsFrom, ih, List.length_cons, Nat.add_right_comm, Nat.add_assoc]
    rfl

theorem held_put (w : Session) (p q : Nat) (x : Holding) :
    (w.put p x).held q = if q = p then some x else w.held q := rfl

theorem get_eq_ok_iff (w : Session) (p : Nat) (x : Holding) :
    w.get p = .ok x ↔ w.held p = some x := by
  unfold get
  cases w.held p <;> simp

end Session

namespace Step

theorem source?_carriedOut (w : Session) (step : Step) (q : Nat) :
    (step.carriedOut w).source? q = step.source? q := by
  cases step with
  | call p r =>
    rw [carriedOut]
    split <;> rfl
  | _ => rfl

/-- What does not overflow is carried out as it is. -/
theorem carriedOut_of_ne_overflow {w : Session} {step : Step}
    (hperform : step.perform w ≠ .error .overflow) : step.carriedOut w = step := by
  cases step with
  | call p r =>
    rw [carriedOut]
    split
    · rename_i x hx
      have hcall : r.carriedOut x = r := by
        refine Call.carriedOut_of_ne_overflow fun hoverflow => hperform ?_
        rw [perform, (w.get_eq_ok_iff p x).2 hx, ok_bind, hoverflow]
        rfl
      rw [hcall]
    · rfl
  | _ => rfl

theorem apply_of_ok {w w' : Session} {step : Step} {reply : Reply}
    (hperform : step.perform w = .ok (w', reply)) : step.apply w = w' := by
  unfold apply
  rw [carriedOut_of_ne_overflow (hperform ▸ nofun), hperform]

theorem apply_of_error {w : Session} {step : Step} {e : StepFault} (he : e ≠ .overflow)
    (hperform : step.perform w = .error e) : step.apply w = w := by
  have hwhole : step.carriedOut w = step :=
    carriedOut_of_ne_overflow fun hoverflow => he (Except.error.inj (hperform.symm.trans hoverflow))
  unfold apply
  rw [hwhole, hperform]

end Step

namespace Session

/-- No step gives an identity back. -/
theorem next_of_perform {w w' : Session} {step : Step} {reply : Reply}
    (hperform : step.perform w = .ok (w', reply)) : w.supply.next ≤ w'.supply.next := by
  cases step with
  | make p m =>
    obtain ⟨x, -, hdone⟩ := map_eq_ok_iff.1 hperform
    cases hdone
    exact Nat.le_succ _
  | clear p =>
    obtain ⟨x, -, hdone⟩ := map_eq_ok_iff.1 hperform
    cases hdone
    exact Nat.le_succ _
  | copy origin p =>
    obtain ⟨x, -, hdone⟩ := map_eq_ok_iff.1 hperform
    cases hdone
    exact Nat.le_refl _
  | call p r =>
    obtain ⟨x, -, hrest⟩ := bind_eq_ok_iff.1 hperform
    obtain ⟨⟨y, answer⟩, -, hdone⟩ := bind_eq_ok_iff.1 hrest
    cases hdone
    exact Nat.le_refl _

end Session

/-! ## The properties of one kind of element -/

/-- The properties of the nodes, or of the edges, in whatever is held. -/
structure Facet (ε : Type) where
  catalog? : Holding → Option (Catalog ε)
  /-- the reply that gives out a handle -/
  given : Handle ε → Reply
  /-- the handle through which a call writes -/
  used? : Call → Option (Handle ε)

/-- The properties of nodes. -/
def nodeFacet : Facet NodeId where
  catalog?
    | .graph g => some g.nodeCatalog
    | .nodeTable c => some c
    | .edgeTable _ => none
  given := .nodeHandle
  used?
    | .graph (.setNodeValue h _ _) _ => some h
    | .nodeTable r => r.used?
    | _ => none

/-- The properties of edges. -/
def edgeFacet : Facet EdgeId where
  catalog?
    | .graph g => some g.edgeCatalog
    | .nodeTable _ => none
    | .edgeTable c => some c
  given := .edgeHandle
  used?
    | .graph (.setEdgeValue h _ _) _ => some h
    | .edgeTable r => r.used?
    | _ => none

variable {ε : Type} [DecidableEq ε] [Element ε]

/-- What the properties of one kind of element owe to what is held: new ones have the given
identity, a call lets them grow, it gives out the handle of the name that it is asked for, and
it fails if the handle that it uses is turned away. -/
structure Facet.Lawful (F : Facet ε) : Prop where
  made : ∀ {owner : Identity} {m : Making} {x : Holding} {c : Catalog ε},
    m.build owner = .ok x → F.catalog? x = some c → c.owner = owner
  cleared : ∀ {owner : Identity} {x : Holding} {c : Catalog ε},
    F.catalog? (x.cleared owner) = some c → c.owner = owner
  grows : ∀ {r : Call} {x y : Holding} {reply : Reply}, r.perform x = .ok (y, reply) →
    Option.Rel Catalog.GrowsInto (F.catalog? x) (F.catalog? y)
  gives : ∀ {r : Call} {x y : Holding} {h : Handle ε} {name : String},
    r.perform x = .ok (y, F.given h) → r.named? = some name →
      ∃ c, F.catalog? y = some c ∧ c.handle? name = some h
  refuses : ∀ {r : Call} {x : Holding} {c : Catalog ε} {h : Handle ε},
    F.catalog? x = some c → F.used? r = some h → c.Rejects h →
      r.perform x = .error (.graph (.unknownHandle (Element.kind ε) h.index)) ∨
        r.perform x = .error .unfit

omit [DecidableEq ε] [Element ε] in
theorem Catalog.owner_fileAll {exists? : ε → Bool} {missing : String → ε → GraphError}
    (ps : List (Property ε)) {c d : Catalog ε} (hfile : c.fileAll exists? missing ps = .ok d) :
    d.owner = c.owner := by
  induction ps generalizing c with
  | nil =>
    cases hfile
    rfl
  | cons p ps ih =>
    unfold Catalog.fileAll at hfile
    split at hfile
    · cases hfile
    · have hrest := ih hfile
      exact hrest

/-- What is made has the given identity, in both catalogs of a graph. -/
theorem Graph.owner_ofParts {owner : Identity} {nodeCount : UInt32}
    {entries : List (NodeId × NodeId × UInt32)} {nodeProperties : List (Property NodeId)}
    {edgeProperties : List (Property EdgeId)} {attributes : Attributes} {g : Graph}
    (hmade : ofParts owner nodeCount entries nodeProperties edgeProperties attributes = .ok g) :
    g.nodeCatalog.owner = owner ∧ g.edgeCatalog.owner = owner := by
  unfold ofParts at hmade
  obtain ⟨a, -, hrest⟩ := bind_eq_ok_iff.1 hmade
  obtain ⟨nodes, hnodes, hrest⟩ := bind_eq_ok_iff.1 hrest
  obtain ⟨edges, hedges, hdone⟩ := bind_eq_ok_iff.1 hrest
  cases hdone
  exact ⟨Catalog.owner_fileAll nodeProperties hnodes, Catalog.owner_fileAll edgeProperties hedges⟩

/-- What is made is an empty table, or a graph whose catalogs have the given identity. -/
theorem Making.build_eq_ok {owner : Identity} {m : Making} {x : Holding}
    (hbuild : m.build owner = .ok x) :
    (∃ g : Graph, x = .graph g ∧ g.nodeCatalog.owner = owner ∧ g.edgeCatalog.owner = owner) ∨
      x = .nodeTable (.empty owner) ∨ x = .edgeTable (.empty owner) := by
  cases m with
  | graph =>
    cases hbuild
    exact .inl ⟨_, rfl, rfl, rfl⟩
  | nodeTable =>
    cases hbuild
    exact .inr (.inl rfl)
  | edgeTable =>
    cases hbuild
    exact .inr (.inr rfl)
  | parts nodeCount entries nodeProperties edgeProperties attributes =>
    obtain ⟨g, hmade, rfl⟩ := map_eq_ok_iff.1 hbuild
    exact .inl ⟨g, rfl, Graph.owner_ofParts (mapError_eq_ok_iff.1 hmade)⟩
  | bytes digest bs =>
    obtain ⟨g, hread, rfl⟩ := map_eq_ok_iff.1 hbuild
    obtain ⟨s, hmade⟩ := Graph.ofParts_of_decodeWith (mapError_eq_ok_iff.1 hread)
    exact .inl ⟨g, rfl, Graph.owner_ofParts hmade⟩

/-- A call that succeeds is a request to the graph or table that is held. -/
theorem Call.perform_eq_ok {r : Call} {x y : Holding} {reply : Reply}
    (hperform : r.perform x = .ok (y, reply)) :
    (∃ q keeps g g', r = .graph q keeps ∧ x = .graph g ∧ y = .graph g' ∧
        q.perform g = .ok (g', reply)) ∨
      (∃ q c d, r = .nodeTable q ∧ x = .nodeTable c ∧ y = .nodeTable d ∧
        q.perform .nodeHandle c = .ok (d, reply)) ∨
      ∃ q c d, r = .edgeTable q ∧ x = .edgeTable c ∧ y = .edgeTable d ∧
        q.perform .edgeHandle c = .ok (d, reply) := by
  unfold perform at hperform
  split at hperform
  · rename_i q keeps g
    obtain ⟨⟨g', answer⟩, hrequest, hdone⟩ := map_eq_ok_iff.1 hperform
    cases hdone
    exact .inl ⟨q, keeps, g, g', rfl, rfl, rfl, mapError_eq_ok_iff.1 hrequest⟩
  · rename_i q c
    obtain ⟨⟨d, answer⟩, hrequest, hdone⟩ := map_eq_ok_iff.1 hperform
    cases hdone
    exact .inr (.inl ⟨q, c, d, rfl, rfl, rfl, mapError_eq_ok_iff.1 hrequest⟩)
  · rename_i q c
    obtain ⟨⟨d, answer⟩, hrequest, hdone⟩ := map_eq_ok_iff.1 hperform
    cases hdone
    exact .inr (.inr ⟨q, c, d, rfl, rfl, rfl, mapError_eq_ok_iff.1 hrequest⟩)
  · cases hperform

/-- A call lets the properties of nodes and those of edges grow. -/
theorem Call.grows_of_perform {r : Call} {x y : Holding} {reply : Reply}
    (hperform : r.perform x = .ok (y, reply)) :
    Option.Rel Catalog.GrowsInto (nodeFacet.catalog? x) (nodeFacet.catalog? y) ∧
      Option.Rel Catalog.GrowsInto (edgeFacet.catalog? x) (edgeFacet.catalog? y) := by
  obtain ⟨q, keeps, g, g', rfl, rfl, rfl, hrequest⟩ | ⟨q, c, d, rfl, rfl, rfl, hrequest⟩ |
    ⟨q, c, d, rfl, rfl, rfl, hrequest⟩ := perform_eq_ok hperform
  · obtain ⟨hnodes, hedges⟩ := Graph.replays_of_perform hrequest keeps
    refine ⟨.some ?_, .some ?_⟩
    · rw [hnodes]
      exact Catalog.growsInto_replay _ _
    · rw [hedges]
      exact Catalog.growsInto_replay _ _
  · exact ⟨.some (TableRequest.growsInto_of_perform hrequest), .none⟩
  · exact ⟨.none, .some (TableRequest.growsInto_of_perform hrequest)⟩

/-- What is made has the given identity, and so has what is cleared. -/
theorem Making.owner_of_build {owner : Identity} {m : Making} {x : Holding}
    (hbuild : m.build owner = .ok x) :
    (∀ c, nodeFacet.catalog? x = some c → c.owner = owner) ∧
      ∀ c, edgeFacet.catalog? x = some c → c.owner = owner := by
  obtain ⟨g, rfl, hnodes, hedges⟩ | rfl | rfl := build_eq_ok hbuild
  · refine ⟨fun c hc => ?_, fun c hc => ?_⟩ <;> cases hc
    · exact hnodes
    · exact hedges
  · exact ⟨fun c hc => by cases hc; rfl, nofun⟩
  · exact ⟨nofun, fun c hc => by cases hc; rfl⟩

theorem Holding.owner_cleared (owner : Identity) (x : Holding) :
    (∀ c, nodeFacet.catalog? (x.cleared owner) = some c → c.owner = owner) ∧
      ∀ c, edgeFacet.catalog? (x.cleared owner) = some c → c.owner = owner := by
  cases x <;> refine ⟨fun c hc => ?_, fun c hc => ?_⟩ <;> cases hc <;> rfl

/-- A call that asks for the handle of a name gets it, and it is a handle of the properties
that have the name afterwards. -/
theorem Call.handle?_of_perform {r : Call} {x y : Holding} {reply : Reply} {name : String}
    (hperform : r.perform x = .ok (y, reply)) (hname : r.named? = some name) :
    (∃ h c, reply = nodeFacet.given h ∧ nodeFacet.catalog? y = some c ∧ c.handle? name = some h) ∨
      ∃ h c, reply = edgeFacet.given h ∧ edgeFacet.catalog? y = some c ∧
        c.handle? name = some h := by
  obtain ⟨q, keeps, g, g', rfl, rfl, rfl, hrequest⟩ | ⟨q, c, d, rfl, rfl, rfl, hrequest⟩ |
    ⟨q, c, d, rfl, rfl, rfl, hrequest⟩ := perform_eq_ok hperform
  · cases q with
    | declareNodeProperty other default =>
      cases hname
      cases hrequest
      exact .inl ⟨_, _, rfl, rfl, Catalog.handle?_declare _ _ _⟩
    | declareEdgeProperty other default =>
      cases hname
      cases hrequest
      exact .inr ⟨_, _, rfl, rfl, Catalog.handle?_declare _ _ _⟩
    | _ => cases hname
  · obtain ⟨h, hreply, hhandle⟩ := TableRequest.handle?_of_perform hrequest hname
    exact .inl ⟨h, d, hreply, rfl, hhandle⟩
  · obtain ⟨h, hreply, hhandle⟩ := TableRequest.handle?_of_perform hrequest hname
    exact .inr ⟨h, d, hreply, rfl, hhandle⟩

theorem lawful_nodeFacet : nodeFacet.Lawful where
  made hbuild := (Making.owner_of_build hbuild).1 _
  cleared {owner x c} := (x.owner_cleared owner).1 c
  grows hperform := (Call.grows_of_perform hperform).1
  gives hperform hname := by
    obtain ⟨h, c, hreply, hc, hhandle⟩ | ⟨h, c, hreply, -⟩ := Call.handle?_of_perform hperform hname
    · cases hreply
      exact ⟨c, hc, hhandle⟩
    · cases hreply
  refuses {r x c h} hcatalog hused hrejects := by
    cases r with
    | graph q keeps =>
      cases q with
      | setNodeValue other n v =>
        cases hused
        refine Call.perform_graph_of_refused fun g hg => ?_
        subst hg
        cases hcatalog
        rw [Request.perform, Graph.setNodeValue, hrejects.written]
        rfl
      | _ => cases hused
    | nodeTable q =>
      refine Call.perform_nodeTable_of_refused fun d hd => ?_
      subst hd
      cases hcatalog
      exact TableRequest.perform_of_rejects hrejects hused
    | edgeTable q => cases hused

theorem lawful_edgeFacet : edgeFacet.Lawful where
  made hbuild := (Making.owner_of_build hbuild).2 _
  cleared {owner x c} := (x.owner_cleared owner).2 c
  grows hperform := (Call.grows_of_perform hperform).2
  gives hperform hname := by
    obtain ⟨h, c, hreply, -⟩ | ⟨h, c, hreply, hc, hhandle⟩ := Call.handle?_of_perform hperform hname
    · cases hreply
    · cases hreply
      exact ⟨c, hc, hhandle⟩
  refuses {r x c h} hcatalog hused hrejects := by
    cases r with
    | graph q keeps =>
      cases q with
      | setEdgeValue other e v =>
        cases hused
        refine Call.perform_graph_of_refused fun g hg => ?_
        subst hg
        cases hcatalog
        rw [Request.perform, Graph.setEdgeValue, hrejects.written]
        rfl
      | _ => cases hused
    | nodeTable q => cases hused
    | edgeTable q =>
      refine Call.perform_edgeTable_of_refused fun d hd => ?_
      subst hd
      cases hcatalog
      exact TableRequest.perform_of_rejects hrejects hused

end StateGraph
