import StateGraph.Proofs.Lineage

set_option autoImplicit false

/-!
# Copies that have gone on apart

Two tables that have come down from one table share its identity, and each numbers on its
own the names that are declared since.  A handle that one of them gave out for a name
therefore works on the other for whatever that has filed at the same position.  It is the
same name, or there is nothing, exactly if the names of one table are the first names of the
other, in their order (`Catalog.faithful_iff`, `Facet.copiesCompared_all`).
-/

namespace StateGraph

/-! ## Lists that agree -/

/-- Two lists have the same element wherever both have one. -/
def Agree {α : Type} (l m : List α) : Prop :=
  ∀ (i : Nat) (a b : α), l[i]? = some a → m[i]? = some b → a = b

/-- Lists agree if one is the beginning of the other. -/
theorem agree_iff {α : Type} {l m : List α} : Agree l m ↔ l <+: m ∨ m <+: l := by
  constructor
  · intro hagree
    induction l generalizing m with
    | nil => exact .inl (List.nil_prefix)
    | cons a l ih =>
      cases m with
      | nil => exact .inr (List.nil_prefix)
      | cons b m =>
        have hfirst : a = b := hagree 0 a b rfl rfl
        have hrest : Agree l m := fun i x y hx hy => hagree (i + 1) x y hx hy
        rw [hfirst, List.prefix_cons_inj, List.prefix_cons_inj]
        exact ih hrest
  · rintro (⟨more, rfl⟩ | ⟨more, rfl⟩) i a b ha hb
    · rw [List.getElem?_append_left (List.getElem?_eq_some_iff.1 ha).1, ha] at hb
      exact Option.some.inj hb
    · rw [List.getElem?_append_left (List.getElem?_eq_some_iff.1 hb).1, hb] at ha
      exact (Option.some.inj ha).symm

variable {ε : Type} [DecidableEq ε] [Element ε]

namespace Catalog

/-! ## Handles of another catalog with the same identity -/

/-- A handle that was given out elsewhere for a name leads to the property of that name, if it
leads to any, and is turned away if the name is not declared. -/
structure Faithful (c : Catalog ε) (name : String) (h : Handle ε) : Prop where
  reached : ∀ other p, c.entry h = .ok (other, p) → other = name
  refused : name ∉ c.names → c.Rejects h

/-- A handle that leads to nothing but its name is turned away where the name is not
declared. -/
theorem faithful_of_reached {c : Catalog ε} {name : String} {h : Handle ε}
    (hreached : ∀ other p, c.entry h = .ok (other, p) → other = name) : c.Faithful name h where
  reached := hreached
  refused hname := by
    refine rejects_of_entry_eq_error (entry_eq_error_iff.2 ?_)
    by_contra hfits
    rw [not_or, not_not, Nat.not_le] at hfits
    obtain ⟨howner, hlt⟩ := hfits
    have hplace := List.getElem?_eq_getElem hlt
    obtain ⟨p, -, hentry⟩ := entry_of_handle (handle?_eq_some_iff.2 ⟨howner, hplace⟩)
    refine hname ?_
    rw [← hreached _ p hentry]
    exact List.getElem_mem hlt

/-- A catalog is faithful to all handles of another one with its identity exactly if the
names of both agree, position by position. -/
theorem faithful_iff {c d : Catalog ε} (howner : c.owner = d.owner) :
    (∀ name h, c.handle? name = some h → d.Faithful name h) ↔
      c.names <+: d.names ∨ d.names <+: c.names := by
  rw [← agree_iff]
  constructor
  · intro hfaithful i a b ha hb
    have hhandle : c.handle? a = some (c.handleAt i) := handle?_eq_some_iff.2 ⟨rfl, ha⟩
    have hother : d.handle? b = some (c.handleAt i) := handle?_eq_some_iff.2 ⟨howner, hb⟩
    obtain ⟨p, -, hentry⟩ := entry_of_handle hother
    exact ((hfaithful a _ hhandle).reached b p hentry).symm
  · intro hagree name h hhandle
    refine faithful_of_reached fun other p hentry => ?_
    obtain ⟨-, hname⟩ := handle?_eq_some_iff.1 hhandle
    obtain ⟨-, hother⟩ := handle?_eq_some_iff.1 (handle?_of_entry hentry)
    exact (hagree h.index name other hname hother).symm

end Catalog

/-! ## Copies in a session -/

namespace Facet

/-- Whenever two places hold what has come down from one table, at the same time or one later
than the other, the handles of the earlier one are safe at the later one exactly if, of the
names that both have got since, those of one are the first of the other. -/
def CopiesCompared (F : Facet ε) (w : Session) : Prop :=
  ∀ middle after s a b base c d,
    F.catalogAt? w s = some base →
    w.ancestor? middle a = some s → F.catalogAt? (w.run middle) a = some c →
    w.ancestor? (middle ++ after) b = some s → F.catalogAt? (w.run (middle ++ after)) b = some d →
    ∃ more more', c.names = base.names ++ more ∧ d.names = base.names ++ more' ∧
      ((∀ name h, F.Issued w middle a name h → d.Faithful name h) ↔ more <+: more' ∨ more' <+: more)

theorem Lawful.copiesCompared {F : Facet ε} (hlawful : F.Lawful) (w : Session) :
    F.CopiesCompared w := by
  intro middle after s a b base c d hbase ha hc hb hd
  obtain ⟨c', hc', hgrows⟩ := (hlawful.grown_of_ancestor? middle ha).after hbase
  obtain ⟨d', hd', hgrows'⟩ := (hlawful.grown_of_ancestor? (middle ++ after) hb).after hbase
  obtain rfl : c' = c := Option.some.inj (hc'.symm.trans hc)
  obtain rfl : d' = d := Option.some.inj (hd'.symm.trans hd)
  obtain ⟨more, hmore⟩ := hgrows.names
  obtain ⟨more', hmore'⟩ := hgrows'.names
  refine ⟨more, more', hmore.symm, hmore'.symm, ?_⟩
  have hissued : ∀ name h, F.Issued w middle a name h ↔ c'.handle? name = some h := by
    intro name h
    constructor
    · intro hgiven
      obtain ⟨f, hf, hhandle⟩ := hlawful.handle?_of_issued hgiven
      obtain rfl : f = c' := Option.some.inj (hf.symm.trans hc)
      exact hhandle
    · exact fun hhandle => .inl ⟨c', hc, hhandle⟩
  simp only [hissued]
  rw [Catalog.faithful_iff (hgrows.owner.trans hgrows'.owner.symm), ← hmore, ← hmore',
    List.prefix_append_right_inj, List.prefix_append_right_inj]

/-- Handles of node properties and of edge properties, between copies. -/
theorem copiesCompared_all (w : Session) :
    nodeFacet.CopiesCompared w ∧ edgeFacet.CopiesCompared w :=
  ⟨lawful_nodeFacet.copiesCompared w, lawful_edgeFacet.copiesCompared w⟩

/-- A copy declares one more name than the original, after the same one: its handle for the name
that both have works on the original, and its handle for the other one is turned away. -/
theorem faithful_of_same_order :
    let w := (Session.blank ⟨0⟩).run [.make 0 .nodeTable]
    let middle : List Step := [.copy 0 1, .call 1 (.nodeTable (.declare "a" .null)),
      .call 1 (.nodeTable (.declare "b" .null)), .call 0 (.nodeTable (.declare "a" (.int 1)))]
    ∃ d, nodeFacet.catalogAt? (w.run middle) 0 = some d ∧ d.Faithful "a" ⟨⟨0⟩, 0⟩ ∧
      d.Faithful "b" ⟨⟨0⟩, 1⟩ := by
  intro w middle
  obtain ⟨more, more', hmore, hmore', hiff⟩ :=
    (copiesCompared_all w).1 middle [] 0 1 0 _ _ _ rfl rfl rfl rfl rfl
  obtain rfl : ["a", "b"] = more := hmore
  obtain rfl : ["a"] = more' := hmore'
  have hfaithful := hiff.2 (.inr (by decide))
  exact ⟨_, rfl, hfaithful "a" _ (.inl ⟨_, rfl, rfl⟩), hfaithful "b" _ (.inl ⟨_, rfl, rfl⟩)⟩

/-- A table declares one name and its copy another: the handle that the copy gives out for its
own name reads and overwrites the property of the original that has the other name. -/
theorem not_faithful_of_diverged :
    let w := (Session.blank ⟨0⟩).run [.make 0 .nodeTable, .copy 0 1,
      .call 0 (.nodeTable (.declare "a" (.int 1))), .call 1 (.nodeTable (.declare "b" (.int 2)))]
    ∃ c d h, nodeFacet.catalogAt? w 0 = some c ∧ nodeFacet.catalogAt? w 1 = some d ∧
      d.handle? "b" = some h ∧ "b" ∉ c.names ∧
      c.read (fun _ => true) h ⟨0⟩ = .ok (.int 1) ∧
      c.write (fun _ => true) h ⟨0⟩ (.int 7) = .ok (c.put "a" ⟨0⟩ (.int 7), none) ∧
      ¬ c.Faithful "b" h := by
  refine ⟨_, _, _, rfl, rfl, rfl, by decide, rfl, rfl, fun hfaithful => ?_⟩
  have hname := hfaithful.reached "a" _ rfl
  exact absurd hname (by decide)

end Facet

end StateGraph
