import StateGraph.Graph.Parts
import StateGraph.Proofs.Maps
import StateGraph.Proofs.Results

set_option autoImplicit false

/-!
# What a catalog keeps

A catalog changes in two ways only: a property is filed under a name, or one of
its properties gets an explicit value.  `Catalog.Within` says that properties are
filed under their own names and that explicit values are on elements that exist.
Membership is asked by the checked writes and skipped by `put`, so a value that is
put on an element keeps the invariant only because the element was just created.
-/

namespace StateGraph

variable {ε : Type}

theorem Property.write_eq_ok_iff [DecidableEq ε] [Element ε] {exists? : ε → Bool}
    {p q : Property ε} {e : ε} {v : Value} {previous : Option Value} :
    p.write exists? e v = .ok (q, previous) ↔
      exists? e = true ∧ q = p.put e v ∧ previous = p.explicit? e := by
  unfold Property.write
  split
  · rename_i he
    simp [he, eq_comm]
  · rename_i he
    simp [he]

/-- An element that exists has its explicit value, or else the default. -/
theorem Property.read_of_exists [DecidableEq ε] [Element ε] {exists? : ε → Bool} (p : Property ε)
    {e : ε} (he : exists? e = true) : p.read exists? e = .ok (p.valueOf e) := by
  rw [read, valueOf]
  cases p.explicit? e with
  | some v => rfl
  | none => exact if_pos he

namespace Catalog

/-- Properties are filed under their own names, and explicit values are on
existing elements. -/
structure Within (exists? : ε → Bool) (c : Catalog ε) : Prop where
  filed : ∀ name p, (name, p) ∈ c.properties.toList → p.name = name
  supported : ∀ name p, (name, p) ∈ c.properties.toList → ∀ e ∈ p.values.keys, exists? e = true

theorem within_empty (exists? : ε → Bool) (owner : Identity) : (empty owner).Within exists? where
  filed name p hmem := by cases hmem
  supported name p hmem := by cases hmem

/-- The invariant survives when more elements exist. -/
theorem Within.mono {exists? exists?' : ε → Bool} {c : Catalog ε} (hwithin : c.Within exists?)
    (hmore : ∀ e, exists? e = true → exists?' e = true) : c.Within exists?' where
  filed := hwithin.filed
  supported name p hmem e he := hmore e (hwithin.supported name p hmem e he)

/-! ## Filing -/

/-- A property under its own name may be filed if its values are on existing
elements. -/
theorem Within.replace {exists? : ε → Bool} {c : Catalog ε} (hwithin : c.Within exists?)
    {name : String} {p : Property ε} (hname : p.name = name)
    (hvalues : ∀ e ∈ p.values.keys, exists? e = true) : (c.replace name p).Within exists? where
  filed other q hmem := by
    rcases OrderedMap.mem_of_mem_insert hmem with heq | hold
    · cases heq
      exact hname
    · exact hwithin.filed other q hold
  supported other q hmem := by
    rcases OrderedMap.mem_of_mem_insert hmem with heq | hold
    · cases heq
      exact hvalues
    · exact hwithin.supported other q hold

theorem Within.file {exists? : ε → Bool} {c : Catalog ε} (hwithin : c.Within exists?)
    {p : Property ε} (hvalues : ∀ e ∈ p.values.keys, exists? e = true) :
    (c.file p).1.Within exists? :=
  hwithin.replace rfl hvalues

theorem Within.declare {exists? : ε → Bool} {c : Catalog ε} (hwithin : c.Within exists?)
    (name : String) (default : Value) : (c.declare name default).1.Within exists? := by
  unfold Catalog.declare
  split
  · exact hwithin
  · exact hwithin.file fun e he => by cases he

/-- Properties that are filed at once are checked one by one. -/
theorem within_fileAll {exists? : ε → Bool} {missing : String → ε → GraphError}
    (ps : List (Property ε)) {c d : Catalog ε} (hwithin : c.Within exists?)
    (hfiled : c.fileAll exists? missing ps = .ok d) : d.Within exists? := by
  induction ps generalizing c with
  | nil =>
    cases hfiled
    exact hwithin
  | cons p ps ih =>
    unfold fileAll at hfiled
    split at hfiled
    · cases hfiled
    · rename_i hnone
      refine ih (hwithin.file ?_) hfiled
      intro e he
      obtain ⟨entry, hentry, rfl⟩ := List.mem_map.1 he
      have hcheck := List.find?_eq_none.1 hnone entry hentry
      simpa using hcheck

/-! ## Values -/

variable [DecidableEq ε]

/-- A value on an existing element may be written into a property that is there. -/
theorem Within.replace_put {exists? : ε → Bool} {c : Catalog ε} (hwithin : c.Within exists?)
    {name : String} {p : Property ε} (hget : c.properties.get? name = some p) {e : ε}
    (he : exists? e = true) (v : Value) : (c.replace name (p.put e v)).Within exists? := by
  have hmem := (OrderedMap.get?_eq_some_iff c.properties name p).1 hget
  refine hwithin.replace (hwithin.filed name p hmem) ?_
  intro e' he'
  rcases (OrderedMap.mem_keys_insert p.values e e' v).1 he' with rfl | hold
  · exact he
  · exact hwithin.supported name p hmem e' hold

theorem Within.put {exists? : ε → Bool} {c : Catalog ε} (hwithin : c.Within exists?)
    (name : String) {e : ε} (he : exists? e = true) (v : Value) :
    (c.put name e v).Within exists? := by
  unfold Catalog.put
  split
  · rename_i p hget
    exact hwithin.replace_put hget he v
  · exact hwithin

theorem Within.putMany {exists? : ε → Bool} {c : Catalog ε} (hwithin : c.Within exists?) {e : ε}
    (he : exists? e = true) (values : List (String × Value)) :
    (c.putMany e values).Within exists? := by
  induction values generalizing c with
  | nil => exact hwithin
  | cons value values ih => exact ih (hwithin.put value.1 he value.2)

variable [Element ε]

omit [DecidableEq ε] in
/-- A handle leads to a property under the name at its position. -/
theorem entry_eq_ok_iff {c : Catalog ε} {h : Handle ε} {name : String} {p : Property ε} :
    c.entry h = .ok (name, p) ↔
      h.owner = c.owner ∧ c.properties.entryAt? h.index = some (name, p) := by
  unfold entry
  by_cases howner : h.owner = c.owner
  · cases hentry : c.properties.entryAt? h.index <;> simp [howner]
  · simp [howner]

omit [DecidableEq ε] in
theorem byName_eq_ok_iff {c : Catalog ε} {name : String} {p : Property ε} :
    c.byName name = .ok p ↔ c.properties.get? name = some p := by
  unfold byName
  cases c.properties.get? name <;> simp

/-- A write that succeeds puts a value on an existing element into a property that
is there. -/
theorem writeByName_eq_ok {exists? : ε → Bool} {c d : Catalog ε} {name : String} {e : ε}
    {v : Value} {previous : Option Value}
    (hwrite : c.writeByName exists? name e v = .ok (d, previous)) :
    ∃ p, c.properties.get? name = some p ∧ exists? e = true ∧ d = c.replace name (p.put e v) := by
  unfold writeByName at hwrite
  obtain ⟨p, hname, hrest⟩ := bind_eq_ok_iff.1 hwrite
  obtain ⟨⟨q, former⟩, hput, hdone⟩ := bind_eq_ok_iff.1 hrest
  obtain ⟨he, rfl, rfl⟩ := Property.write_eq_ok_iff.1 hput
  cases hdone
  exact ⟨p, byName_eq_ok_iff.1 hname, he, rfl⟩

/-- A write through a handle is a write under the name of its property. -/
theorem write_eq_ok {exists? : ε → Bool} {c d : Catalog ε} {h : Handle ε} {e : ε} {v : Value}
    {previous : Option Value} (hwrite : c.write exists? h e v = .ok (d, previous)) :
    ∃ name p, c.properties.get? name = some p ∧ exists? e = true ∧
      d = c.replace name (p.put e v) := by
  unfold write at hwrite
  obtain ⟨⟨name, p⟩, hentry, hrest⟩ := bind_eq_ok_iff.1 hwrite
  obtain ⟨⟨q, former⟩, hput, hdone⟩ := bind_eq_ok_iff.1 hrest
  obtain ⟨he, rfl, rfl⟩ := Property.write_eq_ok_iff.1 hput
  cases hdone
  have hget : c.properties.get? name = some p := by
    rw [OrderedMap.get?_eq_some_iff]
    exact List.mem_of_getElem? (entry_eq_ok_iff.1 hentry).2
  exact ⟨name, p, hget, he, rfl⟩

/-- A successful write keeps values on existing elements. -/
theorem Within.writeByName {exists? exists?' : ε → Bool} {c d : Catalog ε}
    (hwithin : c.Within exists?') (hmore : ∀ e, exists? e = true → exists?' e = true)
    {name : String} {e : ε} {v : Value} {previous : Option Value}
    (hwrite : c.writeByName exists? name e v = .ok (d, previous)) : d.Within exists?' := by
  obtain ⟨p, hget, he, rfl⟩ := writeByName_eq_ok hwrite
  exact hwithin.replace_put hget (hmore e he) v

theorem Within.write {exists? exists?' : ε → Bool} {c d : Catalog ε}
    (hwithin : c.Within exists?') (hmore : ∀ e, exists? e = true → exists?' e = true)
    {h : Handle ε} {e : ε} {v : Value} {previous : Option Value}
    (hwrite : c.write exists? h e v = .ok (d, previous)) : d.Within exists?' := by
  obtain ⟨name, p, hget, he, rfl⟩ := write_eq_ok hwrite
  exact hwithin.replace_put hget (hmore e he) v

/-! ## Names and handles -/

section Names

omit [Element ε]

omit [DecidableEq ε] in
theorem mem_names_iff {c : Catalog ε} {name : String} :
    name ∈ c.names ↔ ∃ p, c.properties.get? name = some p := by
  rw [names, ← OrderedMap.get?_isSome_iff, Option.isSome_iff_exists]

@[simp] theorem owner_put (c : Catalog ε) (name : String) (e : ε) (v : Value) :
    (c.put name e v).owner = c.owner := by
  unfold put
  split <;> rfl

/-- A name without a property is passed over. -/
theorem put_of_not_mem {c : Catalog ε} {name : String} (hname : name ∉ c.names) (e : ε)
    (v : Value) : c.put name e v = c := by
  rw [put, (OrderedMap.get?_eq_none_iff _ _).2 hname]

/-- A value is written into a property that is there, so no name is added. -/
@[simp] theorem names_put (c : Catalog ε) (name : String) (e : ε) (v : Value) :
    (c.put name e v).names = c.names := by
  unfold put
  split
  · rename_i p hget
    exact (OrderedMap.keys_insert _ _ _).trans (if_pos (mem_names_iff.2 ⟨p, hget⟩))
  · rfl

@[simp] theorem owner_putMany (c : Catalog ε) (e : ε) (values : List (String × Value)) :
    (c.putMany e values).owner = c.owner := by
  induction values generalizing c with
  | nil => rfl
  | cons value values ih => exact (ih _).trans (owner_put c value.1 e value.2)

@[simp] theorem names_putMany (c : Catalog ε) (e : ε) (values : List (String × Value)) :
    (c.putMany e values).names = c.names := by
  induction values generalizing c with
  | nil => rfl
  | cons value values ih => exact (ih _).trans (names_put c value.1 e value.2)

omit [DecidableEq ε] in
/-- Handles depend on the identity and the names only. -/
theorem handle?_congr {c d : Catalog ε} (howner : d.owner = c.owner) (hnames : d.names = c.names)
    (name : String) : d.handle? name = c.handle? name := by
  unfold handle? handleAt
  rw [OrderedMap.indexOf?_congr hnames name, howner]

omit [DecidableEq ε] in
theorem handle?_isSome_iff {c : Catalog ε} {name : String} :
    (c.handle? name).isSome = true ↔ name ∈ c.names := by
  rw [handle?, Option.isSome_map, OrderedMap.indexOf?_isSome_iff, names]

omit [DecidableEq ε] in
theorem handle?_eq_none_iff {c : Catalog ε} {name : String} :
    c.handle? name = none ↔ name ∉ c.names := by
  rw [← handle?_isSome_iff, Option.not_isSome_iff_eq_none]

end Names

/-- A write by name is accepted if the property and the element are there. -/
theorem writeByName_of_mem {exists? : ε → Bool} {c : Catalog ε} {name : String}
    (hname : name ∈ c.names) {e : ε} (he : exists? e = true) (v : Value) :
    ∃ previous, c.writeByName exists? name e v = .ok (c.put name e v, previous) := by
  obtain ⟨p, hget⟩ := mem_names_iff.1 hname
  have hwrite : p.write exists? e v = .ok (p.put e v, p.explicit? e) :=
    Property.write_eq_ok_iff.2 ⟨he, rfl, rfl⟩
  refine ⟨p.explicit? e, ?_⟩
  unfold writeByName
  rw [byName_eq_ok_iff.2 hget, ok_bind, hwrite, ok_bind, put, hget]
  rfl

omit [DecidableEq ε] in
/-- The handle of a name leads to the property that the name leads to. -/
theorem entry_of_handle {c : Catalog ε} {h : Handle ε} {name : String}
    (hhandle : c.handle? name = some h) :
    ∃ p, c.properties.get? name = some p ∧ c.entry h = .ok (name, p) := by
  obtain ⟨p, hget⟩ := mem_names_iff.1 (handle?_isSome_iff.1 (Option.isSome_of_eq_some hhandle))
  obtain ⟨i, hindex, rfl⟩ := Option.map_eq_some_iff.1 hhandle
  refine ⟨p, hget, entry_eq_ok_iff.2 ⟨rfl, ?_⟩⟩
  rw [show (c.handleAt i).index = i from rfl, OrderedMap.entryAt?_of_indexOf? hindex, hget]
  rfl

/-- A write through the handle of a name is a write by that name. -/
theorem write_of_handle {exists? : ε → Bool} {c : Catalog ε} {h : Handle ε} {name : String}
    (hhandle : c.handle? name = some h) (e : ε) (v : Value) :
    c.write exists? h e v = c.writeByName exists? name e v := by
  obtain ⟨p, hget, hentry⟩ := entry_of_handle hhandle
  rw [write, hentry, ok_bind, writeByName, byName_eq_ok_iff.2 hget]
  rfl

/-! ## Reading -/

section Reading

omit [Element ε] in
/-- The explicit value of an element in the property with a name. -/
def explicit? (c : Catalog ε) (name : String) (e : ε) : Option Value :=
  (c.properties.get? name).bind fun p => p.explicit? e

/-- The default of the property with a name. -/
def default? {ε : Type} (c : Catalog ε) (name : String) : Option Value :=
  (c.properties.get? name).map fun p => p.default

omit [Element ε]

/-- A value is seen under its name and on its element, if there is a property of
that name. -/
theorem explicit?_put (c : Catalog ε) (name other : String) (e e' : ε) (v : Value) :
    (c.put name e v).explicit? other e' =
      if (name = other ∧ e = e') ∧ name ∈ c.names then some v else c.explicit? other e' := by
  unfold put
  cases hget : c.properties.get? name with
  | none =>
    have hname : name ∉ c.names := (OrderedMap.get?_eq_none_iff _ _).1 hget
    simp [hname]
  | some p =>
    have hname : name ∈ c.names := mem_names_iff.2 ⟨p, hget⟩
    by_cases hother : name = other
    · subst hother
      simp [explicit?, replace, hget, hname, Property.explicit?, Property.put]
    · simp [explicit?, replace, hother]

theorem default?_put (c : Catalog ε) (name other : String) (e : ε) (v : Value) :
    (c.put name e v).default? other = c.default? other := by
  unfold put
  cases hget : c.properties.get? name with
  | none => rfl
  | some p =>
    by_cases hother : name = other
    · subst hother
      simp [default?, replace, hget, Property.put]
    · simp [default?, replace, hother]

theorem default?_putMany (c : Catalog ε) (e : ε) (values : List (String × Value)) (other : String) :
    (c.putMany e values).default? other = c.default? other := by
  induction values generalizing c with
  | nil => rfl
  | cons value values ih => exact (ih _).trans (default?_put c value.1 other e value.2)

/-- Several values under distinct names are each seen under its name. -/
theorem explicit?_putMany (c : Catalog ε) (e e' : ε) {values : List (String × Value)}
    (hnodup : (values.map Prod.fst).Nodup) {name : String} (hname : name ∈ c.names) :
    (c.putMany e values).explicit? name e' =
      if e = e' then (AssocList.lookup name values).or (c.explicit? name e')
      else c.explicit? name e' := by
  induction values generalizing c with
  | nil => simp [putMany, AssocList.lookup]
  | cons value values ih =>
    simp only [List.map_cons, List.nodup_cons] at hnodup
    have hrest := ih (c.put value.1 e value.2) hnodup.2 (by rwa [names_put])
    rw [show c.putMany e (value :: values) = (c.put value.1 e value.2).putMany e values from rfl,
      hrest, explicit?_put]
    by_cases he : e = e'
    · by_cases hkey : value.1 = name
      · subst hkey
        have hnone : AssocList.lookup value.1 values = none :=
          (AssocList.lookup_eq_none_iff _ _).2 hnodup.1
        simp [he, hname, hnone, AssocList.lookup]
      · simp [he, hkey, AssocList.lookup]
    · simp [he]

/-- Several values under distinct names are each filed under its name. -/
theorem get?_putMany (c : Catalog ε) (e : ε) {values : List (String × Value)}
    (hnodup : (values.map Prod.fst).Nodup) (name : String) :
    (c.putMany e values).properties.get? name =
      (c.properties.get? name).map fun p => (AssocList.lookup name values).elim p (p.put e) := by
  induction values generalizing c with
  | nil => exact Option.map_id'.symm
  | cons value values ih =>
    simp only [List.map_cons, List.nodup_cons] at hnodup
    have hfirst : (c.put value.1 e value.2).properties.get? name =
        if value.1 = name then (c.properties.get? name).map fun p => p.put e value.2
        else c.properties.get? name := by
      unfold put
      by_cases hkey : value.1 = name
      · subst hkey
        cases hget : c.properties.get? value.1 <;> simp [replace, hget]
      · cases hget : c.properties.get? value.1 <;> simp [replace, hkey]
    rw [show c.putMany e (value :: values) = (c.put value.1 e value.2).putMany e values from rfl,
      ih _ hnodup.2, hfirst, AssocList.lookup]
    by_cases hkey : value.1 = name
    · subst hkey
      rw [if_pos rfl, if_pos rfl, (AssocList.lookup_eq_none_iff _ _).2 hnodup.1, Option.map_map]
      rfl
    · rw [if_neg hkey, if_neg hkey]

/-- Only the values under names that are declared matter, and not their order. -/
theorem putMany_congr {c : Catalog ε} (e : ε) {values values' : List (String × Value)}
    (hnodup : (values.map Prod.fst).Nodup) (hnodup' : (values'.map Prod.fst).Nodup)
    (hsame : ∀ name ∈ c.names, AssocList.lookup name values = AssocList.lookup name values') :
    c.putMany e values = c.putMany e values' := by
  have hproperties : (c.putMany e values).properties = (c.putMany e values').properties := by
    refine OrderedMap.eq_of_keys_of_get?
      ((names_putMany c e values).trans (names_putMany c e values').symm) fun name => ?_
    rw [get?_putMany c e hnodup, get?_putMany c e hnodup']
    cases hget : c.properties.get? name with
    | none => rfl
    | some p => rw [hsame name (mem_names_iff.2 ⟨p, hget⟩)]
  have howner := (owner_putMany c e values).trans (owner_putMany c e values').symm
  exact congrArg₂ Catalog.mk howner hproperties

/-! ## Values on several elements -/

/-- Writes values on several elements, one after another. -/
def putAll (c : Catalog ε) (entries : List (ε × List (String × Value))) : Catalog ε :=
  entries.foldl (fun c entry => c.putMany entry.1 entry.2) c

@[simp] theorem owner_putAll (c : Catalog ε) (entries : List (ε × List (String × Value))) :
    (c.putAll entries).owner = c.owner := by
  induction entries generalizing c with
  | nil => rfl
  | cons entry entries ih => exact (ih _).trans (owner_putMany c entry.1 entry.2)

@[simp] theorem names_putAll (c : Catalog ε) (entries : List (ε × List (String × Value))) :
    (c.putAll entries).names = c.names := by
  induction entries generalizing c with
  | nil => rfl
  | cons entry entries ih => exact (ih _).trans (names_putMany c entry.1 entry.2)

theorem default?_putAll (c : Catalog ε) (entries : List (ε × List (String × Value)))
    (name : String) : (c.putAll entries).default? name = c.default? name := by
  induction entries generalizing c with
  | nil => rfl
  | cons entry entries ih => exact (ih _).trans (default?_putMany c entry.1 entry.2 name)

/-- Values on distinct elements under distinct names are each seen on its element and
under its name. -/
theorem explicit?_putAll (c : Catalog ε) {entries : List (ε × List (String × Value))}
    (hdistinct : (entries.map Prod.fst).Nodup)
    (hvalues : ∀ entry ∈ entries, (entry.2.map Prod.fst).Nodup) {name : String}
    (hname : name ∈ c.names) (e : ε) :
    (c.putAll entries).explicit? name e =
      ((AssocList.lookup e entries).bind (AssocList.lookup name)).or (c.explicit? name e) := by
  induction entries generalizing c with
  | nil => rfl
  | cons entry entries ih =>
    simp only [List.map_cons, List.nodup_cons] at hdistinct
    have hrest := ih (c.putMany entry.1 entry.2) hdistinct.2
      (fun other hother => hvalues other (List.mem_cons_of_mem _ hother)) (by rwa [names_putMany])
    rw [show c.putAll (entry :: entries) = (c.putMany entry.1 entry.2).putAll entries from rfl,
      hrest, explicit?_putMany c entry.1 e (hvalues entry List.mem_cons_self) hname,
      AssocList.lookup]
    by_cases he : entry.1 = e
    · subst he
      rw [(AssocList.lookup_eq_none_iff _ _).2 hdistinct.1, if_pos rfl, if_pos rfl]
      rfl
    · rw [if_neg he, if_neg he]

theorem Within.putAll {exists? : ε → Bool} {c : Catalog ε} (hwithin : c.Within exists?)
    {entries : List (ε × List (String × Value))}
    (hexists : ∀ entry ∈ entries, exists? entry.1 = true) : (c.putAll entries).Within exists? := by
  induction entries generalizing c with
  | nil => exact hwithin
  | cons entry entries ih =>
    refine ih (hwithin.putMany (hexists entry List.mem_cons_self) entry.2) ?_
    exact fun other hother => hexists other (List.mem_cons_of_mem _ hother)

end Reading

/-- A property that is found by its name is read there. -/
theorem readByName_of_byName {exists? : ε → Bool} {c : Catalog ε} {name : String} {p : Property ε}
    (hname : c.byName name = .ok p) {e : ε} (he : exists? e = true) :
    c.readByName exists? name e = .ok (p.valueOf e) := by
  rw [readByName, hname, ok_bind, p.read_of_exists he]

/-- An element that exists has its explicit value, or else the default. -/
theorem readByName_of_default {exists? : ε → Bool} {c : Catalog ε} {name : String} {default : Value}
    (hdefault : c.default? name = some default) {e : ε} (he : exists? e = true) :
    c.readByName exists? name e = .ok ((c.explicit? name e).getD default) := by
  obtain ⟨p, hget, rfl⟩ := Option.map_eq_some_iff.1 hdefault
  rw [readByName_of_byName (byName_eq_ok_iff.2 hget) he, explicit?, hget]
  rfl

omit [Element ε] in
/-- What an element holds under a name: a value of its own, or else the default. -/
def held (c : Catalog ε) (name : String) (e : ε) : Value :=
  (c.explicit? name e).getD ((c.default? name).getD .null)

omit [Element ε] in
theorem held_of_get? {c : Catalog ε} {name : String} {p : Property ε}
    (hget : c.properties.get? name = some p) (e : ε) : c.held name e = p.valueOf e := by
  rw [held, explicit?, default?, hget]
  rfl

/-- Under a name that is declared, what an element that exists holds is read. -/
theorem readByName_of_mem {exists? : ε → Bool} {c : Catalog ε} {name : String}
    (hname : name ∈ c.names) {e : ε} (he : exists? e = true) :
    c.readByName exists? name e = .ok (c.held name e) := by
  obtain ⟨p, hget⟩ := mem_names_iff.1 hname
  rw [readByName_of_byName (byName_eq_ok_iff.2 hget) he, held_of_get? hget]

/-! ## Declarations -/

section Declarations

omit [DecidableEq ε] [Element ε]

/-- The catalog that declares properties with the given defaults. -/
def declared (owner : Identity) (defaults : Attributes) : Catalog ε :=
  ⟨owner, ⟨defaults.toList.map fun d => (d.1, Property.declare d.1 d.2), by
    rw [List.map_map]
    exact defaults.distinct⟩⟩

theorem within_declared (exists? : ε → Bool) (owner : Identity) (defaults : Attributes) :
    (declared owner defaults : Catalog ε).Within exists? where
  filed name p hmem := by
    obtain ⟨d, -, heq⟩ := List.mem_map.1 hmem
    cases heq
    rfl
  supported name p hmem e he := by
    obtain ⟨d, -, heq⟩ := List.mem_map.1 hmem
    cases heq
    cases he

theorem names_declared (owner : Identity) (defaults : Attributes) :
    (declared owner defaults : Catalog ε).names = defaults.keys := by
  show (defaults.toList.map fun d => (d.1, Property.declare d.1 d.2)).map Prod.fst = _
  rw [List.map_map]
  rfl

theorem get?_declared (owner : Identity) (defaults : Attributes) (name : String) :
    (declared owner defaults : Catalog ε).properties.get? name =
      (defaults.get? name).map (Property.declare name) := by
  refine Option.ext fun p => ?_
  rw [OrderedMap.get?_eq_some_iff, Option.map_eq_some_iff]
  simp only [OrderedMap.get?_eq_some_iff]
  show (name, p) ∈ defaults.toList.map _ ↔ _
  simp only [List.mem_map, Prod.mk.injEq, Prod.exists]
  constructor
  · rintro ⟨_, value, hmem, rfl, rfl⟩
    exact ⟨value, hmem, rfl⟩
  · rintro ⟨value, hmem, rfl⟩
    exact ⟨name, value, hmem, rfl, rfl⟩

theorem default?_declared (owner : Identity) (defaults : Attributes) (name : String) :
    (declared owner defaults : Catalog ε).default? name = defaults.get? name := by
  rw [default?, get?_declared, Option.map_map]
  exact congrFun Option.map_id (defaults.get? name)

theorem explicit?_declared [DecidableEq ε] (owner : Identity) (defaults : Attributes)
    (name : String) (e : ε) : (declared owner defaults).explicit? name e = none := by
  rw [explicit?, get?_declared]
  cases defaults.get? name <;> rfl

/-- A name that is not declared yet is declared. -/
theorem declare_of_not_mem {c : Catalog ε} {name : String} (hname : name ∉ c.names)
    (default : Value) :
    (c.declare name default).1 = c.replace name (Property.declare name default) := by
  rw [declare, handle?_eq_none_iff.2 hname]
  rfl

theorem declare_of_handle {c : Catalog ε} {name : String} {h : Handle ε}
    (hhandle : c.handle? name = some h) (default : Value) : c.declare name default = (c, h) := by
  rw [declare, hhandle]

/-- Catalogs are equal if they list the same properties under the same names. -/
theorem eq_of_toList_eq {c d : Catalog ε} (howner : c.owner = d.owner)
    (hlist : c.properties.toList = d.properties.toList) : c = d := by
  cases c
  cases d
  cases howner
  exact congrArg _ (OrderedMap.ext hlist)

/-- Declares properties one after another. -/
def declareEach (c : Catalog ε) (defaults : List (String × Value)) : Catalog ε :=
  defaults.foldl (fun c d => (c.declare d.1 d.2).1) c

/-- What is declared already keeps its place, and the rest follows in order. -/
theorem toList_declareEach {defaults : List (String × Value)}
    (hnodup : (defaults.map Prod.fst).Nodup) (c : Catalog ε) :
    (c.declareEach defaults).properties.toList = c.properties.toList ++
      (defaults.filter fun d => decide (d.1 ∉ c.names)).map fun d =>
        (d.1, Property.declare d.1 d.2) := by
  induction defaults generalizing c with
  | nil => exact (List.append_nil _).symm
  | cons d defaults ih =>
    obtain ⟨hfirst, hrest⟩ := List.nodup_cons.1 hnodup
    rw [show c.declareEach (d :: defaults) = (c.declare d.1 d.2).1.declareEach defaults from rfl,
      ih hrest]
    by_cases hold : d.1 ∈ c.names
    · obtain ⟨h, hhandle⟩ := Option.isSome_iff_exists.1 (handle?_isSome_iff.2 hold)
      rw [declare_of_handle hhandle, List.filter_cons_of_neg (by simpa using hold)]
    · -- the name that comes in is none of those that follow, so the same ones are new
      have hlist : (c.replace d.1 (Property.declare d.1 d.2)).properties.toList =
          c.properties.toList ++ [(d.1, Property.declare d.1 d.2)] :=
        OrderedMap.toList_insert_of_not_mem hold _
      have hnames : (c.replace d.1 (Property.declare d.1 d.2)).names = c.names ++ [d.1] :=
        (OrderedMap.keys_insert _ _ _).trans (if_neg hold)
      have hsame : (defaults.filter fun e => decide (e.1 ∉ c.names ++ [d.1])) =
          defaults.filter fun e => decide (e.1 ∉ c.names) := by
        refine List.filter_congr fun e he => ?_
        have hne : e.1 ≠ d.1 := fun heq => hfirst (heq ▸ List.mem_map_of_mem he)
        simp [hne]
      rw [declare_of_not_mem hold, hlist, hnames, hsame,
        List.filter_cons_of_pos (by simpa using hold), List.append_assoc]
      rfl

theorem mem_names_declareEach_iff {defaults : List (String × Value)}
    (hnodup : (defaults.map Prod.fst).Nodup) (c : Catalog ε) (name : String) :
    name ∈ (c.declareEach defaults).names ↔ name ∈ c.names ∨ name ∈ defaults.map Prod.fst := by
  have hnames : (c.declareEach defaults).names =
      c.names ++ (defaults.filter fun d => decide (d.1 ∉ c.names)).map Prod.fst := by
    refine (congrArg (List.map Prod.fst) (toList_declareEach hnodup c)).trans ?_
    rw [List.map_append, List.map_map]
    rfl
  rw [hnames, List.mem_append]
  by_cases hold : name ∈ c.names
  · exact iff_of_true (.inl hold) (.inl hold)
  · refine or_congr_right ?_
    simp only [List.mem_map, List.mem_filter, decide_eq_true_eq]
    constructor
    · rintro ⟨d, ⟨hd, -⟩, rfl⟩
      exact ⟨d, hd, rfl⟩
    · rintro ⟨d, hd, rfl⟩
      exact ⟨d, ⟨hd, hold⟩, rfl⟩

theorem owner_declareEach (c : Catalog ε) (defaults : List (String × Value)) :
    (c.declareEach defaults).owner = c.owner := by
  induction defaults generalizing c with
  | nil => rfl
  | cons d defaults ih =>
    refine (ih (c.declare d.1 d.2).1).trans ?_
    unfold declare
    split <;> rfl

theorem Within.declareEach {exists? : ε → Bool} {c : Catalog ε} (hwithin : c.Within exists?)
    (defaults : List (String × Value)) : (c.declareEach defaults).Within exists? := by
  induction defaults generalizing c with
  | nil => exact hwithin
  | cons d defaults ih => exact ih (hwithin.declare d.1 d.2)

/-- Declared on an empty catalog, properties make the catalog that declares them. -/
theorem declareEach_empty (owner : Identity) (defaults : Attributes) :
    (empty owner : Catalog ε).declareEach defaults.toList = declared owner defaults := by
  refine eq_of_toList_eq (owner_declareEach _ _) ((toList_declareEach defaults.distinct _).trans ?_)
  refine (List.nil_append _).trans (congrArg (List.map _) (List.filter_eq_self.2 fun d _ => ?_))
  exact decide_eq_true List.not_mem_nil

end Declarations

end Catalog

end StateGraph
