import StateGraph.Proofs.Catalogs

set_option autoImplicit false

/-!
# Values from a record

A record lists what has happened to the properties of one kind of element, in order:
names were declared, and values were given to elements.  What a property holds follows
from the record alone.  The first declaration of a name gives the default; the value of
an element is the last one that was given after it.  What was given under the name
before is not remembered (`Record.lastValue?`).

A catalog that replays a record keeps to it (`Catalog.follows_replay`), so a read gives
what the record says (`Catalog.Follows.readByName`, `Catalog.Follows.read`).
-/

namespace StateGraph

variable {ε : Type}

/-- What can happen to the properties of one kind of element. -/
inductive Note (ε : Type) where
  /-- a name is declared, for the first time or again -/
  | declared (name : String) (default : Value)
  /-- an element is given a value under a name, which may be declared or not -/
  | written (name : String) (e : ε) (v : Value)

namespace Note

/-- The default that is given when the name is declared. -/
def declares? (name : String) : Note ε → Option Value
  | .declared other default => if other = name then some default else none
  | .written _ _ _ => none

/-- The value that the element is given under the name. -/
def writes? [DecidableEq ε] (name : String) (e : ε) : Note ε → Option Value
  | .declared _ _ => none
  | .written other e' v => if other = name ∧ e' = e then some v else none

/-- Several values that one element is given, one after another. -/
def writtenOn (e : ε) (values : List (String × Value)) : List (Note ε) :=
  values.map fun (name, v) => .written name e v

end Note

/-! ## What a record says -/

namespace Record

/-- The default of a name is that of its first declaration. -/
def default? (notes : List (Note ε)) (name : String) : Option Value :=
  notes.findSome? (Note.declares? name)

/-- The part of a record from the first declaration of a name on. -/
def sinceDeclared (notes : List (Note ε)) (name : String) : List (Note ε) :=
  notes.dropWhile fun note => (note.declares? name).isNone

theorem sinceDeclared_append (notes more : List (Note ε)) (name : String) :
    sinceDeclared (notes ++ more) name =
      if (default? notes name).isSome then sinceDeclared notes name ++ more
      else sinceDeclared more name := by
  induction notes with
  | nil => rfl
  | cons note notes ih =>
    rw [List.cons_append, sinceDeclared, sinceDeclared, default?, List.dropWhile_cons,
      List.dropWhile_cons, List.findSome?_cons]
    cases note.declares? name with
    | none => exact ih
    | some default => rfl

theorem sinceDeclared_of_undeclared {notes : List (Note ε)} {name : String}
    (hundeclared : ¬ (default? notes name).isSome = true) : sinceDeclared notes name = [] := by
  have happend := sinceDeclared_append notes [] name
  rwa [List.append_nil, if_neg hundeclared] at happend

theorem default?_append (notes more : List (Note ε)) (name : String) :
    default? (notes ++ more) name = (default? notes name).or (default? more name) :=
  List.findSome?_append

variable [DecidableEq ε]

/-- The value that an element was last given after the name was declared. -/
def lastValue? (notes : List (Note ε)) (name : String) (e : ε) : Option Value :=
  (sinceDeclared notes name).reverse.findSome? (Note.writes? name e)

/-- A declaration gives no element a value. -/
theorem lastValue?_declared (notes : List (Note ε)) (other : String) (default : Value)
    (name : String) (e : ε) :
    lastValue? (notes ++ [.declared other default]) name e = lastValue? notes name e := by
  unfold lastValue?
  rw [sinceDeclared_append]
  split
  · rw [List.reverse_append, List.findSome?_append]
    rfl
  · rename_i hundeclared
    rw [sinceDeclared_of_undeclared hundeclared]
    by_cases hother : other = name <;> simp [sinceDeclared, Note.declares?, hother, Note.writes?]

/-- A value is remembered under its own name and on its own element, if the name is
declared. -/
theorem lastValue?_written (notes : List (Note ε)) (other : String) (e' : ε) (v : Value)
    (name : String) (e : ε) :
    lastValue? (notes ++ [.written other e' v]) name e =
      if (other = name ∧ e' = e) ∧ (default? notes other).isSome then some v
      else lastValue? notes name e := by
  unfold lastValue?
  rw [sinceDeclared_append]
  by_cases hdeclared : (default? notes name).isSome
  · rw [if_pos hdeclared, List.reverse_append, List.findSome?_append]
    by_cases hsame : other = name ∧ e' = e
    · obtain ⟨rfl, rfl⟩ := hsame
      simp [Note.writes?, hdeclared]
    · simp [Note.writes?, hsame]
  · have hskipped : ¬ ((other = name ∧ e' = e) ∧ (default? notes other).isSome) := by
      rintro ⟨⟨rfl, -⟩, hother⟩
      exact hdeclared hother
    rw [if_neg hdeclared, if_neg hskipped, sinceDeclared_of_undeclared hdeclared]
    rfl

variable [Element ε]

/-- The same, but an element that was given a value is not asked whether it exists. -/
def recalledFirst (notes : List (Note ε)) (exists? : ε → Bool) (name : String) (e : ε) :
    Except GraphError Value :=
  match default? notes name, lastValue? notes name e with
  | none, _ => .error (.unknownName (Element.kind ε) name)
  | some _, some v => .ok v
  | some default, none =>
    if exists? e then .ok default else .error (Element.membershipError name e)

end Record

/-! ## Catalogs that follow a record -/

namespace Catalog

variable [DecidableEq ε]

/-- Does to a catalog what a note says. -/
def note (c : Catalog ε) : Note ε → Catalog ε
  | .declared name default => (c.declare name default).1
  | .written name e v => c.put name e v

/-- Does to a catalog everything that a record says, in order. -/
def replay (c : Catalog ε) (notes : List (Note ε)) : Catalog ε := notes.foldl note c

theorem replay_append (c : Catalog ε) (notes more : List (Note ε)) :
    c.replay (notes ++ more) = (c.replay notes).replay more :=
  List.foldl_append

theorem putMany_eq_replay (c : Catalog ε) (e : ε) (values : List (String × Value)) :
    c.putMany e values = c.replay (Note.writtenOn e values) := by
  rw [putMany, replay, Note.writtenOn, List.foldl_map]
  rfl

/-- A catalog holds the defaults and the values that a record says, and files each
property under its own name. -/
structure Follows (c : Catalog ε) (notes : List (Note ε)) : Prop where
  filed : ∀ name p, c.properties.get? name = some p → p.name = name
  defaults : ∀ name, c.default? name = Record.default? notes name
  values : ∀ name e, c.explicit? name e = Record.lastValue? notes name e

theorem follows_empty (owner : Identity) : (empty owner : Catalog ε).Follows [] where
  filed name p hget := by cases hget
  defaults name := rfl
  values name e := rfl

theorem Follows.mem_names_iff {c : Catalog ε} {notes : List (Note ε)} (hfollows : c.Follows notes)
    (name : String) : name ∈ c.names ↔ (Record.default? notes name).isSome = true := by
  rw [← hfollows.defaults, default?, Option.isSome_map, Option.isSome_iff_exists,
    Catalog.mem_names_iff]

theorem Follows.replace {c : Catalog ε} {notes : List (Note ε)} (hfollows : c.Follows notes)
    {name : String} {p : Property ε} (hname : p.name = name) (other : String) (q : Property ε)
    (hget : (c.replace name p).properties.get? other = some q) : q.name = other := by
  rw [Catalog.replace, OrderedMap.get?_insert] at hget
  split at hget
  · rename_i hother
    cases hget
    exact hname.trans hother
  · exact hfollows.filed other q hget

theorem Follows.declare {c : Catalog ε} {notes : List (Note ε)} (hfollows : c.Follows notes)
    (name : String) (default : Value) :
    (c.declare name default).1.Follows (notes ++ [.declared name default]) := by
  have hdeclares : ∀ other, Record.default? [Note.declared (ε := ε) name default] other =
      if name = other then some default else none := fun other => by
    by_cases hother : name = other <;> simp [Record.default?, Note.declares?, hother]
  cases hhandle : c.handle? name with
  | some h =>
    have hdeclared := (hfollows.mem_names_iff name).1
      (handle?_isSome_iff.1 (Option.isSome_of_eq_some hhandle))
    obtain ⟨first, hfirst⟩ := Option.isSome_iff_exists.1 hdeclared
    rw [declare_of_handle hhandle]
    refine ⟨hfollows.filed, fun other => ?_, fun other e => ?_⟩
    · rw [Record.default?_append, hdeclares, hfollows.defaults]
      by_cases hother : name = other
      · subst hother
        rw [hfirst]
        rfl
      · rw [if_neg hother, Option.or_none]
    · rw [Record.lastValue?_declared, hfollows.values]
  | none =>
    have hfresh := handle?_eq_none_iff.1 hhandle
    have hnone : c.properties.get? name = none := (OrderedMap.get?_eq_none_iff _ _).2 hfresh
    have hundeclared : Record.default? notes name = none := by
      rw [← hfollows.defaults, default?, hnone]
      rfl
    rw [declare_of_not_mem hfresh]
    refine ⟨hfollows.replace rfl, fun other => ?_, fun other e => ?_⟩
    · rw [Record.default?_append, hdeclares, ← hfollows.defaults, default?, default?,
        Catalog.replace, OrderedMap.get?_insert]
      by_cases hother : name = other
      · subst hother
        rw [if_pos rfl, if_pos rfl, hnone]
        rfl
      · rw [if_neg hother, if_neg hother, Option.or_none]
    · rw [Record.lastValue?_declared, ← hfollows.values, explicit?, explicit?, Catalog.replace,
        OrderedMap.get?_insert]
      split
      · rename_i hother
        rw [← hother, hnone]
        rfl
      · rfl

theorem Follows.put {c : Catalog ε} {notes : List (Note ε)} (hfollows : c.Follows notes)
    (name : String) (e : ε) (v : Value) :
    (c.put name e v).Follows (notes ++ [.written name e v]) where
  filed := by
    unfold Catalog.put
    cases hget : c.properties.get? name with
    | none => exact hfollows.filed
    | some p => exact hfollows.replace (hfollows.filed name p hget)
  defaults other := by
    rw [default?_put, Record.default?_append, hfollows.defaults]
    exact Option.or_none.symm
  values other e' := by
    simp only [explicit?_put, Record.lastValue?_written, hfollows.mem_names_iff, hfollows.values]

/-- Replayed on a catalog that follows a record, the notes go to the end of the record. -/
theorem follows_replay (notes : List (Note ε)) {c : Catalog ε} {before : List (Note ε)}
    (hfollows : c.Follows before) : (c.replay notes).Follows (before ++ notes) := by
  induction notes generalizing c before with
  | nil => rwa [List.append_nil]
  | cons note notes ih =>
    have hfirst : (c.note note).Follows (before ++ [note]) := by
      cases note with
      | declared name default => exact hfollows.declare name default
      | written name e v => exact hfollows.put name e v
    have hrest := ih hfirst
    rwa [List.append_assoc] at hrest

/-! ## Handles -/

omit [DecidableEq ε] in
/-- The handle of a name is the place of the property in its catalog. -/
theorem handle?_eq_some_iff {c : Catalog ε} {name : String} {h : Handle ε} :
    c.handle? name = some h ↔ h.owner = c.owner ∧ c.names[h.index]? = some name := by
  rw [handle?, Option.map_eq_some_iff]
  simp only [OrderedMap.indexOf?_eq_some_iff]
  constructor
  · rintro ⟨i, hname, rfl⟩
    exact ⟨rfl, hname⟩
  · rintro ⟨howner, hname⟩
    refine ⟨h.index, hname, ?_⟩
    rw [handleAt, ← howner]

/-- One catalog comes before another: the identity is the same, and names are added at the
end only. -/
structure GrowsInto {ε : Type} (c d : Catalog ε) : Prop where
  owner : d.owner = c.owner
  names : c.names <+: d.names

omit [DecidableEq ε] in
theorem GrowsInto.refl (c : Catalog ε) : c.GrowsInto c := ⟨rfl, List.prefix_rfl⟩

omit [DecidableEq ε] in
theorem GrowsInto.trans {c d f : Catalog ε} (hfirst : c.GrowsInto d) (hrest : d.GrowsInto f) :
    c.GrowsInto f :=
  ⟨hrest.owner.trans hfirst.owner, hfirst.names.trans hrest.names⟩

omit [DecidableEq ε] in
/-- Handles stay valid for the names that they were given out for. -/
theorem GrowsInto.handle? {c d : Catalog ε} (hgrows : c.GrowsInto d) {name : String} {h : Handle ε}
    (hhandle : c.handle? name = some h) : d.handle? name = some h := by
  obtain ⟨howner, hname⟩ := handle?_eq_some_iff.1 hhandle
  obtain ⟨more, hmore⟩ := hgrows.names
  refine handle?_eq_some_iff.2 ⟨howner.trans hgrows.owner.symm, ?_⟩
  rw [← hmore, List.getElem?_append_left (List.getElem?_eq_some_iff.1 hname).1]
  exact hname

omit [DecidableEq ε] in
/-- What is filed under a name leaves other names in their places. -/
theorem growsInto_replace (c : Catalog ε) (name : String) (p : Property ε) :
    c.GrowsInto (c.replace name p) where
  owner := rfl
  names := by
    rw [show (c.replace name p).names = _ from OrderedMap.keys_insert c.properties name p]
    split
    · exact List.prefix_rfl
    · exact List.prefix_append _ _

omit [DecidableEq ε] in
theorem growsInto_declare (c : Catalog ε) (name : String) (default : Value) :
    c.GrowsInto (c.declare name default).1 := by
  cases hhandle : c.handle? name with
  | some h =>
    rw [declare_of_handle hhandle]
    exact .refl c
  | none =>
    rw [declare_of_not_mem (handle?_eq_none_iff.1 hhandle)]
    exact c.growsInto_replace name _

theorem growsInto_note (c : Catalog ε) (note : Note ε) : c.GrowsInto (c.note note) := by
  cases note with
  | declared name default => exact c.growsInto_declare name default
  | written name e v => exact ⟨owner_put c name e v, (names_put c name e v) ▸ List.prefix_rfl⟩

theorem growsInto_replay (notes : List (Note ε)) (c : Catalog ε) :
    c.GrowsInto (c.replay notes) := by
  induction notes generalizing c with
  | nil => exact .refl c
  | cons note notes ih => exact (c.growsInto_note note).trans (ih (c.note note))

omit [DecidableEq ε] in
/-- The handle that is given out when a property is filed is that of its name. -/
theorem handle?_file (c : Catalog ε) (p : Property ε) :
    (c.file p).1.handle? p.name = some (c.file p).2 := by
  refine handle?_eq_some_iff.2 ⟨rfl, ?_⟩
  show (c.properties.insert p.name p).keys[(c.properties.indexOf? p.name).getD c.size]? =
    some p.name
  rw [OrderedMap.keys_insert]
  cases hindex : c.properties.indexOf? p.name with
  | some i =>
    have hplace := (OrderedMap.indexOf?_eq_some_iff _ _ _).1 hindex
    rw [if_pos (List.mem_of_getElem? hplace)]
    exact hplace
  | none =>
    have hfresh : p.name ∉ c.properties.keys := by
      rw [← OrderedMap.indexOf?_isSome_iff, hindex]
      exact Bool.false_ne_true
    have hsize : c.size = c.properties.keys.length := (List.length_map _).symm
    rw [if_neg hfresh, Option.getD_none, hsize, List.getElem?_concat_length]

omit [DecidableEq ε] in
/-- A declaration gives out the handle under which the name is found afterwards. -/
theorem handle?_declare (c : Catalog ε) (name : String) (default : Value) :
    (c.declare name default).1.handle? name = some (c.declare name default).2 := by
  cases hhandle : c.handle? name with
  | some h =>
    rw [declare_of_handle hhandle]
    exact hhandle
  | none =>
    have hfiled : c.declare name default = c.file (.declare name default) := by
      rw [declare, hhandle]
    rw [hfiled]
    exact c.handle?_file (.declare name default)

/-- The name that a handle was given out for. -/
def nameOf? {ε : Type} (c : Catalog ε) (h : Handle ε) : Option String :=
  c.names.find? fun name => decide (c.handle? name = some h)

omit [DecidableEq ε] in
theorem nameOf?_eq_some_iff {c : Catalog ε} {name : String} {h : Handle ε} :
    c.nameOf? h = some name ↔ c.handle? name = some h := by
  constructor
  · intro hname
    have hfound := List.find?_some hname
    exact of_decide_eq_true hfound
  · intro hhandle
    have hmem := handle?_isSome_iff.1 (Option.isSome_of_eq_some hhandle)
    cases hname : c.nameOf? h with
    | none =>
      have hother := List.find?_eq_none.1 hname name hmem
      simp [hhandle] at hother
    | some other =>
      have hfound := List.find?_some hname
      have hother : c.handle? other = some h := of_decide_eq_true hfound
      have hplace := (handle?_eq_some_iff.1 hother).2
      rw [(handle?_eq_some_iff.1 hhandle).2] at hplace
      exact hplace.symm

/-! ## Writing and reading -/

variable [Element ε]

omit [DecidableEq ε] in
/-- What a handle leads to is filed under the name whose handle it is. -/
theorem handle?_of_entry {c : Catalog ε} {h : Handle ε} {name : String} {p : Property ε}
    (hentry : c.entry h = .ok (name, p)) : c.handle? name = some h := by
  obtain ⟨howner, hplace⟩ := entry_eq_ok_iff.1 hentry
  refine handle?_eq_some_iff.2 ⟨howner, ?_⟩
  rw [names, OrderedMap.keys, List.getElem?_map]
  exact congrArg (Option.map Prod.fst) hplace

/-- A write by name that succeeds is a note. -/
theorem note_of_writeByName {exists? : ε → Bool} {c d : Catalog ε} {name : String} {e : ε}
    {v : Value} {previous : Option Value}
    (hwrite : c.writeByName exists? name e v = .ok (d, previous)) :
    d = c.note (.written name e v) := by
  obtain ⟨p, hget, -, rfl⟩ := writeByName_eq_ok hwrite
  rw [Catalog.note, Catalog.put, hget]

/-- A write through a handle that succeeds is a note, under the name of the handle. -/
theorem replay_of_write {exists? : ε → Bool} {c d : Catalog ε} {h : Handle ε} {e : ε} {v : Value}
    {previous : Option Value} (hwrite : c.write exists? h e v = .ok (d, previous)) :
    d = c.replay ((c.nameOf? h).toList.map fun name => .written name e v) := by
  unfold Catalog.write at hwrite
  obtain ⟨⟨name, p⟩, hentry, hrest⟩ := bind_eq_ok_iff.1 hwrite
  obtain ⟨⟨q, former⟩, hput, hdone⟩ := bind_eq_ok_iff.1 hrest
  obtain ⟨-, rfl, rfl⟩ := Property.write_eq_ok_iff.1 hput
  cases hdone
  have hget : c.properties.get? name = some p := by
    rw [OrderedMap.get?_eq_some_iff]
    exact List.mem_of_getElem? (entry_eq_ok_iff.1 hentry).2
  rw [nameOf?_eq_some_iff.2 (handle?_of_entry hentry)]
  show _ = c.put name e v
  rw [Catalog.put, hget]

/-- A read by name gives what the record says. -/
theorem Follows.readByName {c : Catalog ε} {notes : List (Note ε)} (hfollows : c.Follows notes)
    (exists? : ε → Bool) (name : String) (e : ε) :
    c.readByName exists? name e = Record.recalledFirst notes exists? name e := by
  unfold Catalog.readByName Catalog.byName Record.recalledFirst
  rw [← hfollows.defaults, ← hfollows.values, default?, explicit?]
  cases hget : c.properties.get? name with
  | none => rfl
  | some p =>
    rw [Option.map_some, Option.bind_some, ok_bind, Property.read, hfollows.filed name p hget]
    cases p.explicit? e <;> rfl

/-- Reading through a handle is reading by the name that it was given out for. -/
theorem read_of_handle {c : Catalog ε} {name : String} {h : Handle ε}
    (hhandle : c.handle? name = some h) (exists? : ε → Bool) (e : ε) :
    c.read exists? h e = c.readByName exists? name e := by
  obtain ⟨p, hget, hentry⟩ := entry_of_handle hhandle
  rw [Catalog.read, byHandle, hentry, Catalog.readByName, byName_eq_ok_iff.2 hget]
  rfl

end Catalog

end StateGraph
