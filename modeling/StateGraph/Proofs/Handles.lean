import StateGraph.Proofs.Notes

set_option autoImplicit false

/-!
# Handles at one catalog

A catalog looks at two things in a handle, the identity and the position.  It takes the
handle of each of its names for the property of that name, whatever is done through it
(`Catalog.Honours`), and turns away every handle of another identity or of a position that
it does not have (`Catalog.Rejects`).  It does not know for which name a handle was given
out.
-/

namespace StateGraph

/-! ## Words -/

namespace Handle

variable {ε : Type}

/-- A handle in the words in which it is kept: the identity has 64 bits and the position has
32, and what does not fit is cut off. -/
def inWords (h : Handle ε) : Handle ε :=
  ⟨⟨h.owner.serial % UInt64.size⟩, h.index % UInt32.size⟩

/-- Nothing is cut off exactly if the identity and the position fit their words. -/
theorem inWords_eq_iff {h : Handle ε} :
    h.inWords = h ↔ h.owner.serial < UInt64.size ∧ h.index < UInt32.size := by
  rw [inWords, Handle.mk.injEq, Identity.mk.injEq, Nat.mod_eq_iff_lt (by decide),
    Nat.mod_eq_iff_lt (by decide)]

theorem owner_inWords {h : Handle ε} (hserial : h.owner.serial < UInt64.size) :
    h.inWords.owner = h.owner :=
  congrArg Identity.mk (Nat.mod_eq_of_lt hserial)

end Handle

namespace Catalog

variable {ε : Type} [Element ε]

/-! ## Overwriting -/

/-- Puts a property in the place of that of a handle.  It is filed under the name of the
place, whatever its own name is. -/
def overwrite (c : Catalog ε) (h : Handle ε) (p : Property ε) : Except GraphError (Catalog ε) := do
  let (name, _) ← c.entry h
  return c.replace name p

/-- Puts a property in the place of that of a name. -/
def overwriteByName (c : Catalog ε) (name : String) (p : Property ε) :
    Except GraphError (Catalog ε) := do
  let _ ← c.byName name
  return c.replace name p

theorem overwrite_eq_ok {c d : Catalog ε} {h : Handle ε} {p : Property ε}
    (hput : c.overwrite h p = .ok d) : ∃ name, d = c.replace name p := by
  unfold overwrite at hput
  obtain ⟨⟨name, q⟩, -, hdone⟩ := bind_eq_ok_iff.1 hput
  cases hdone
  exact ⟨name, rfl⟩

theorem overwriteByName_eq_ok {c d : Catalog ε} {name : String} {p : Property ε}
    (hput : c.overwriteByName name p = .ok d) : d = c.replace name p := by
  unfold overwriteByName at hput
  obtain ⟨q, -, hdone⟩ := bind_eq_ok_iff.1 hput
  cases hdone
  rfl

variable [DecidableEq ε]

/-! ## Handles that are accepted -/

/-- A catalog has a property of the name, and whatever is done through the handle is done to
that property. -/
structure Honours (c : Catalog ε) (name : String) (h : Handle ε) : Prop where
  declared : ∃ p, c.byName name = .ok p
  found : c.handle? name = some h
  reached : c.byHandle h = c.byName name
  read : ∀ exists? e, c.read exists? h e = c.readByName exists? name e
  written : ∀ exists? e v, c.write exists? h e v = c.writeByName exists? name e v
  overwritten : ∀ p, c.overwrite h p = c.overwriteByName name p

theorem honours_of_handle? {c : Catalog ε} {name : String} {h : Handle ε}
    (hhandle : c.handle? name = some h) : c.Honours name h := by
  obtain ⟨p, hget, hentry⟩ := entry_of_handle hhandle
  have hname : c.byName name = .ok p := byName_eq_ok_iff.2 hget
  refine ⟨⟨p, hname⟩, hhandle, ?_, read_of_handle hhandle, fun _ => write_of_handle hhandle, ?_⟩
  · rw [byHandle, hentry, hname]
    rfl
  · intro q
    rw [overwrite, hentry, overwriteByName, hname]
    rfl

/-! ## Handles that are turned away -/

/-- Whatever is tried through the handle fails, and the error has the position of the handle
in the place of a name. -/
structure Rejects (c : Catalog ε) (h : Handle ε) : Prop where
  reached : c.byHandle h = .error (.unknownHandle (Element.kind ε) h.index)
  read : ∀ exists? e, c.read exists? h e = .error (.unknownHandle (Element.kind ε) h.index)
  written : ∀ exists? e v,
    c.write exists? h e v = .error (.unknownHandle (Element.kind ε) h.index)
  overwritten : ∀ p, c.overwrite h p = .error (.unknownHandle (Element.kind ε) h.index)

omit [DecidableEq ε] in
/-- A handle is turned away for its identity or for its position. -/
theorem entry_eq_error_iff {c : Catalog ε} {h : Handle ε} :
    c.entry h = .error (.unknownHandle (Element.kind ε) h.index) ↔
      h.owner ≠ c.owner ∨ c.names.length ≤ h.index := by
  have hsize : c.names.length = c.properties.entries.length := List.length_map _
  unfold entry OrderedMap.entryAt?
  by_cases howner : h.owner = c.owner
  · cases hentry : c.properties.entries[h.index]? with
    | none => simpa [howner, hsize] using hentry
    | some entry =>
      obtain ⟨hlt, -⟩ := List.getElem?_eq_some_iff.1 hentry
      simpa [howner, hsize] using hlt
  · simp [howner]

theorem rejects_of_entry_eq_error {c : Catalog ε} {h : Handle ε}
    (hentry : c.entry h = .error (.unknownHandle (Element.kind ε) h.index)) : c.Rejects h where
  reached := by
    rw [byHandle, hentry]
    rfl
  read exists? e := by
    rw [Catalog.read, byHandle, hentry]
    rfl
  written exists? e v := by
    rw [write, hentry]
    rfl
  overwritten p := by
    rw [overwrite, hentry]
    rfl

/-- A catalog turns away the handles of other identities. -/
theorem rejects_of_owner_ne {c : Catalog ε} {h : Handle ε} (howner : h.owner ≠ c.owner) :
    c.Rejects h :=
  rejects_of_entry_eq_error (entry_eq_error_iff.2 (.inl howner))

end Catalog

end StateGraph
