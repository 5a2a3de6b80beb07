import StateGraph.Proofs.Sessions

set_option autoImplicit false

/-!
# Handles over whole sessions

What has come down from a table, by requests and by copying, has the names of the table in
their places and its identity.  So a handle goes on to work on whatever has come down from
its issuer since it was given out.  What was made by another step has another identity,
however names and positions may agree, and turns the handle away
(`Facet.handlesScoped_all`).

The second half needs a view of the whole session: identities of different steps differ.
`Facet.Lineage` is what every step keeps.  It remembers the identities of everything that
was ever made, because a handle may come from a table that is long gone.

The first half says nothing about two copies that have both gone on: they share an identity,
and a handle that one of them gave out afterwards works on the other as its position says
(`Facet.copiesCompared_all`).
-/

namespace StateGraph.Facet

variable {ε : Type}

/-- The properties of what a place holds. -/
def catalogAt? (F : Facet ε) (w : Session) (q : Nat) : Option (Catalog ε) :=
  (w.held q).bind F.catalog?

/-- A place holds what has grown out of what another place held before. -/
def Grown (F : Facet ε) (w : Session) (p : Nat) (w' : Session) (q : Nat) : Prop :=
  Option.Rel Catalog.GrowsInto (F.catalogAt? w p) (F.catalogAt? w' q)

variable {F : Facet ε}

theorem Grown.of_eq {w w' : Session} {p q : Nat}
    (heq : F.catalogAt? w' q = F.catalogAt? w p) : F.Grown w p w' q := by
  rw [Grown, heq]
  cases F.catalogAt? w p with
  | none => exact .none
  | some c => exact .some (.refl c)

theorem Grown.trans {w w' w'' : Session} {p q s : Nat} (hfirst : F.Grown w p w' q)
    (hrest : F.Grown w' q w'' s) : F.Grown w p w'' s := by
  unfold Grown at *
  generalize F.catalogAt? w p = first at *
  generalize F.catalogAt? w' q = middle at *
  generalize F.catalogAt? w'' s = last at *
  cases hfirst with
  | none => exact hrest
  | some hgrows =>
    cases hrest with
    | some hmore => exact .some (hgrows.trans hmore)

/-- What a place holds afterwards shows what the other one held. -/
theorem Grown.before {w w' : Session} {p q : Nat} (hgrown : F.Grown w p w' q) {d : Catalog ε}
    (hd : F.catalogAt? w' q = some d) : ∃ c, F.catalogAt? w p = some c ∧ c.GrowsInto d := by
  rw [Grown, hd] at hgrown
  generalize F.catalogAt? w p = first at *
  cases hgrown with
  | some hgrows => exact ⟨_, rfl, hgrows⟩

/-- What a place held goes on in the other one. -/
theorem Grown.after {w w' : Session} {p q : Nat} (hgrown : F.Grown w p w' q) {c : Catalog ε}
    (hc : F.catalogAt? w p = some c) : ∃ d, F.catalogAt? w' q = some d ∧ c.GrowsInto d := by
  rw [Grown, hc] at hgrown
  generalize F.catalogAt? w' q = last at *
  cases hgrown with
  | some hgrows => exact ⟨_, rfl, hgrows⟩

variable [DecidableEq ε] [Element ε]

/-! ## One step -/

/-- What a place holds after a step that succeeds has grown out of what its source held, or it
is new and has the next identity. -/
theorem Lawful.perform (hlawful : F.Lawful) {w w' : Session} {step : Step} {reply : Reply}
    (hperform : step.perform w = .ok (w', reply)) (q : Nat) :
    (∃ p, step.source? q = some p ∧ F.Grown w p w' q) ∨
      (step.source? q = none ∧ w.supply.next < w'.supply.next ∧
        ∀ c, F.catalogAt? w' q = some c → c.owner = ⟨w.supply.next⟩) := by
  have hsame : ∀ {p : Nat} {x : Holding} {supply : Supply}, q ≠ p →
      F.catalogAt? { w.put p x with supply := supply } q = F.catalogAt? w q := by
    intro p x supply hq
    rw [catalogAt?, catalogAt?]
    exact congrArg (Option.bind · F.catalog?) (if_neg hq)
  have hput : ∀ {p : Nat} {x : Holding} {supply : Supply}, q = p →
      F.catalogAt? { w.put p x with supply := supply } q = F.catalog? x := by
    intro p x supply hq
    exact congrArg (Option.bind · F.catalog?) (if_pos hq)
  cases step with
  | make p m =>
    obtain ⟨x, hbuild, hdone⟩ := map_eq_ok_iff.1 hperform
    cases hdone
    by_cases hq : q = p
    · refine .inr ⟨if_pos hq, Nat.lt_succ_self _, fun c hc => ?_⟩
      exact hlawful.made hbuild ((hput hq).symm.trans hc)
    · exact .inl ⟨q, if_neg hq, .of_eq (hsame hq)⟩
  | clear p =>
    obtain ⟨x, -, hdone⟩ := map_eq_ok_iff.1 hperform
    cases hdone
    by_cases hq : q = p
    · refine .inr ⟨if_pos hq, Nat.lt_succ_self _, fun c hc => ?_⟩
      exact hlawful.cleared ((hput hq).symm.trans hc)
    · exact .inl ⟨q, if_neg hq, .of_eq (hsame hq)⟩
  | copy origin p =>
    obtain ⟨x, hget, hdone⟩ := map_eq_ok_iff.1 hperform
    cases hdone
    by_cases hq : q = p
    · refine .inl ⟨origin, if_pos hq, .of_eq ((hput hq).trans ?_)⟩
      rw [catalogAt?, (w.get_eq_ok_iff origin x).1 hget]
      rfl
    · exact .inl ⟨q, if_neg hq, .of_eq (hsame hq)⟩
  | call p r =>
    obtain ⟨x, hget, hrest⟩ := bind_eq_ok_iff.1 hperform
    obtain ⟨⟨y, answer⟩, hcall, hdone⟩ := bind_eq_ok_iff.1 hrest
    cases hdone
    by_cases hq : q = p
    · refine .inl ⟨q, rfl, ?_⟩
      rw [Grown, hput hq, catalogAt?, hq, (w.get_eq_ok_iff p x).1 hget]
      exact hlawful.grows hcall
    · exact .inl ⟨q, rfl, .of_eq (hsame hq)⟩

theorem Lawful.apply (hlawful : F.Lawful) (w : Session) (step : Step) (q : Nat) :
    (∃ p, w.sourceOf step q = some p ∧ F.Grown w p (step.apply w) q) ∨
      (w.sourceOf step q = none ∧ w.supply.next < (step.apply w).supply.next ∧
        ∀ c, F.catalogAt? (step.apply w) q = some c → c.owner = ⟨w.supply.next⟩) := by
  unfold Session.sourceOf Step.apply
  cases hperform : (step.carriedOut w).perform w with
  | error e => exact .inl ⟨q, rfl, .of_eq rfl⟩
  | ok result =>
    have hstep := hlawful.perform hperform q
    rwa [step.source?_carriedOut w] at hstep

omit [DecidableEq ε] [Element ε] in
theorem next_le_apply (w : Session) (step : Step) :
    w.supply.next ≤ (step.apply w).supply.next := by
  unfold Step.apply
  cases hperform : (step.carriedOut w).perform w with
  | error e => exact Nat.le_refl _
  | ok result => exact Session.next_of_perform hperform

omit [DecidableEq ε] [Element ε] in
theorem next_le_run (steps : List Step) (w : Session) :
    w.supply.next ≤ (w.run steps).supply.next := by
  induction steps generalizing w with
  | nil => exact Nat.le_refl _
  | cons step steps ih => exact Nat.le_trans (next_le_apply w step) (ih (step.apply w))

/-! ## Descent -/

/-- What has come down from something has grown out of it. -/
theorem Lawful.grown_of_ancestor? (hlawful : F.Lawful) (steps : List Step) {w : Session} {p q : Nat}
    (hancestor : w.ancestor? steps q = some p) : F.Grown w p (w.run steps) q := by
  induction steps generalizing w p q with
  | nil =>
    cases hancestor
    exact .of_eq rfl
  | cons step steps ih =>
    obtain ⟨middle, hrest, hfirst⟩ := Option.bind_eq_some_iff.1 hancestor
    obtain ⟨origin, hsource, hgrown⟩ | ⟨hnone, -⟩ := hlawful.apply w step middle
    · rw [hsource] at hfirst
      cases hfirst
      have hmore : F.Grown (step.apply w) middle (w.run (step :: steps)) q := ih hrest
      exact hgrown.trans hmore
    · rw [hnone] at hfirst
      cases hfirst

/-! ## Identities -/

/-- What is held has the identity that the step of its birth took; `made` has the identities
of all steps so far, also of those whose work is lost, and no two steps took the same. -/
structure Lineage (F : Facet ε) (w : Session) (births : Nat → Option Nat) (number : Nat)
    (made : Nat → Option Identity) : Prop where
  born : ∀ q c, F.catalogAt? w q = some c → ∃ k, births q = some k ∧ made k = some c.owner
  earlier : ∀ k owner, made k = some owner → k < number ∧ owner.serial < w.supply.next
  distinct : ∀ j k owner, made j = some owner → made k = some owner → j = k

omit [DecidableEq ε] [Element ε] in
theorem lineage_blank (F : Facet ε) (supply : Supply) :
    F.Lineage (.blank supply) (fun _ => none) 0 fun _ => none where
  born q c hc := by cases hc
  earlier k owner hmade := by cases hmade
  distinct j k owner hj := by cases hj

/-- A step keeps the identities of the steps before it, and adds its own if it takes one. -/
theorem Lineage.apply (hlawful : F.Lawful) {w : Session} {births : Nat → Option Nat} {number : Nat}
    {made : Nat → Option Identity} (hlineage : F.Lineage w births number made) (step : Step) :
    ∃ made', (∀ k owner, made k = some owner → made' k = some owner) ∧
      F.Lineage (step.apply w) (w.birthsAfter births number step) (number + 1) made' := by
  have hstay : ∀ q c, F.catalogAt? (step.apply w) q = some c →
      (∃ k, w.birthsAfter births number step q = some k ∧ made k = some c.owner) ∨
        (w.birthsAfter births number step q = some number ∧ c.owner = ⟨w.supply.next⟩ ∧
          w.supply.next < (step.apply w).supply.next) := by
    intro q c hc
    unfold Session.birthsAfter
    obtain ⟨p, hsource, hgrown⟩ | ⟨hsource, hmore, howner⟩ := hlawful.apply w step q
    · obtain ⟨before, hbefore, hgrows⟩ := hgrown.before hc
      rw [hsource, hgrows.owner]
      exact .inl (hlineage.born p before hbefore)
    · rw [hsource]
      exact .inr ⟨rfl, howner c hc, hmore⟩
  have hnext := next_le_apply w step
  by_cases htakes : w.supply.next < (step.apply w).supply.next
  · -- the step takes an identity, which is filed under its number
    have hold : ∀ k owner, made k = some owner →
        Function.update made number (some ⟨w.supply.next⟩) k = some owner := by
      intro k owner hmade
      have hlt := (hlineage.earlier k owner hmade).1
      rwa [Function.update_of_ne (Nat.ne_of_lt hlt)]
    have hcases : ∀ k owner, Function.update made number (some ⟨w.supply.next⟩) k = some owner →
        (k = number ∧ owner = ⟨w.supply.next⟩) ∨ made k = some owner := by
      intro k owner hmade
      by_cases hk : k = number
      · rw [hk, Function.update_self] at hmade
        exact .inl ⟨hk, (Option.some.inj hmade).symm⟩
      · rw [Function.update_of_ne hk] at hmade
        exact .inr hmade
    refine ⟨_, hold, ?_, ?_, ?_⟩
    · intro q c hc
      obtain ⟨k, hbirth, hmade⟩ | ⟨hbirth, howner, -⟩ := hstay q c hc
      · exact ⟨k, hbirth, hold k c.owner hmade⟩
      · exact ⟨number, hbirth, by rw [Function.update_self, howner]⟩
    · intro k owner hmade
      obtain ⟨rfl, rfl⟩ | hmade := hcases k owner hmade
      · exact ⟨Nat.lt_succ_self _, htakes⟩
      · obtain ⟨hlt, hserial⟩ := hlineage.earlier k owner hmade
        exact ⟨Nat.lt_succ_of_lt hlt, Nat.lt_trans hserial htakes⟩
    · intro j k owner hj hk
      obtain ⟨hjn, howner⟩ | hj := hcases j owner hj <;>
        obtain ⟨hkn, howner'⟩ | hk := hcases k owner hk
      · exact hjn.trans hkn.symm
      · have hserial := (hlineage.earlier k owner hk).2
        rw [howner] at hserial
        exact absurd hserial (Nat.lt_irrefl _)
      · have hserial := (hlineage.earlier j owner hj).2
        rw [howner'] at hserial
        exact absurd hserial (Nat.lt_irrefl _)
      · exact hlineage.distinct j k owner hj hk
  · refine ⟨made, fun k owner hmade => hmade, ?_, ?_, hlineage.distinct⟩
    · intro q c hc
      obtain ⟨k, hbirth, hmade⟩ | ⟨-, -, hmore⟩ := hstay q c hc
      · exact ⟨k, hbirth, hmade⟩
      · exact absurd hmore htakes
    · intro k owner hmade
      obtain ⟨hlt, hserial⟩ := hlineage.earlier k owner hmade
      exact ⟨Nat.lt_succ_of_lt hlt, Nat.lt_of_lt_of_le hserial hnext⟩

/-- A run keeps the identities of the steps before it. -/
theorem Lineage.run (hlawful : F.Lawful) (steps : List Step) {w : Session}
    {births : Nat → Option Nat} {number : Nat} {made : Nat → Option Identity}
    (hlineage : F.Lineage w births number made) :
    ∃ made', (∀ k owner, made k = some owner → made' k = some owner) ∧
      F.Lineage (w.run steps) (w.birthsFrom births number steps) (number + steps.length) made' := by
  induction steps generalizing w births number made with
  | nil => exact ⟨made, fun k owner hmade => hmade, hlineage⟩
  | cons step steps ih =>
    obtain ⟨made₁, hfirst, hlineage₁⟩ := hlineage.apply hlawful step
    obtain ⟨made₂, hrest, hlineage₂⟩ := ih hlineage₁
    refine ⟨made₂, fun k owner hmade => hrest k owner (hfirst k owner hmade), ?_⟩
    rw [List.length_cons, Nat.add_comm steps.length, ← Nat.add_assoc]
    exact hlineage₂

/-- Things of different births, at the same time or at different times, have different
identities. -/
theorem Lawful.owner_ne_of_birth?_ne (hlawful : F.Lawful) {supply : Supply}
    {before after : List Step} {p q : Nat} {c d : Catalog ε}
    (hc : F.catalogAt? ((Session.blank supply).run before) p = some c)
    (hd : F.catalogAt? ((Session.blank supply).run (before ++ after)) q = some d)
    (hbirths : Session.birth? supply before p ≠ Session.birth? supply (before ++ after) q) :
    c.owner ≠ d.owner := by
  intro hsame
  obtain ⟨made₁, -, hlineage₁⟩ := (F.lineage_blank supply).run hlawful before
  obtain ⟨made₂, hkept, hlineage₂⟩ := hlineage₁.run hlawful after
  rw [← Session.birthsFrom_append, ← Session.run_append] at hlineage₂
  obtain ⟨j, hj, hmade⟩ := hlineage₁.born p c hc
  obtain ⟨k, hk, hmade'⟩ := hlineage₂.born q d hd
  have heq : j = k := hlineage₂.distinct j k d.owner (hsame ▸ hkept j c.owner hmade) hmade'
  refine hbirths ?_
  rw [Session.birth?, Session.birth?, hj, hk, heq]

/-! ## Handles -/

omit [DecidableEq ε] [Element ε] in
/-- A handle is given out for a name at the end of a run: the place is asked for the handle of
the name, or the last step is a request to it that gives the handle out. -/
def Issued (F : Facet ε) (w : Session) (steps : List Step) (p : Nat)
    (name : String) (h : Handle ε) :
    Prop :=
  (∃ c, F.catalogAt? (w.run steps) p = some c ∧ c.handle? name = some h) ∨
    ∃ earlier r w', steps = earlier ++ [.call p r] ∧ r.named? = some name ∧
      (Step.call p r).perform (w.run earlier) = .ok (w', F.given h)

theorem Lawful.handle?_of_issued (hlawful : F.Lawful) {w : Session} {steps : List Step} {p : Nat}
    {name : String} {h : Handle ε} (hissued : F.Issued w steps p name h) :
    ∃ c, F.catalogAt? (w.run steps) p = some c ∧ c.handle? name = some h := by
  obtain hlooked | ⟨earlier, r, w', rfl, hname, hperform⟩ := hissued
  · exact hlooked
  · obtain ⟨x, -, hrest⟩ := bind_eq_ok_iff.1 hperform
    obtain ⟨⟨y, answer⟩, hcall, hdone⟩ := bind_eq_ok_iff.1 hrest
    cases hdone
    obtain ⟨c, hc, hhandle⟩ := hlawful.gives hcall hname
    refine ⟨c, ?_, hhandle⟩
    have hlast : (w.run (earlier ++ [.call p r])) = (w.run earlier).put p y := by
      rw [Session.run_append]
      exact Step.apply_of_ok hperform
    rw [hlast, catalogAt?, Session.held_put, if_pos rfl]
    exact hc

/-- A handle works, for the name that it was given out for, on whatever has come down from its
issuer since, and on nothing that has another birth.  This is said of the handle in its words.
The identities of the run have to fit theirs, and the positions of the issuer too where the
handle works; where it is turned away its position does not matter. -/
structure HandlesScoped (F : Facet ε) (supply : Supply) : Prop where
  kept : ∀ before after p q name h issuer,
    F.Issued (.blank supply) before p name h →
    F.catalogAt? ((Session.blank supply).run before) p = some issuer →
    issuer.names.length ≤ UInt32.size →
    ((Session.blank supply).run (before ++ after)).supply.next ≤ UInt64.size →
    ((Session.blank supply).run before).ancestor? after q = some p →
    ∃ c, F.catalogAt? ((Session.blank supply).run (before ++ after)) q = some c ∧
      c.Honours name h.inWords
  rejected : ∀ before after p q name h c,
    F.Issued (.blank supply) before p name h →
    F.catalogAt? ((Session.blank supply).run (before ++ after)) q = some c →
    ((Session.blank supply).run (before ++ after)).supply.next ≤ UInt64.size →
    Session.birth? supply before p ≠ Session.birth? supply (before ++ after) q →
    c.Rejects h.inWords ∧ ∀ r, F.used? r = some h.inWords →
      (Step.call q r).apply ((Session.blank supply).run (before ++ after)) =
        (Session.blank supply).run (before ++ after)

/-- A request through a handle that is turned away changes nothing. -/
theorem Lawful.apply_of_rejects (hlawful : F.Lawful) {w : Session} {q : Nat} {c : Catalog ε}
    (hc : F.catalogAt? w q = some c) {h : Handle ε} (hrejects : c.Rejects h) {r : Call}
    (hused : F.used? r = some h) : (Step.call q r).apply w = w := by
  obtain ⟨x, hx, hcatalog⟩ := Option.bind_eq_some_iff.1 hc
  have hget := (w.get_eq_ok_iff q x).2 hx
  have hcall : ∃ e, e ≠ .overflow ∧ r.perform x = .error e := by
    rcases hlawful.refuses hcatalog hused hrejects with hunknown | hunfit
    · exact ⟨_, StepFault.noConfusion, hunknown⟩
    · exact ⟨_, StepFault.noConfusion, hunfit⟩
  obtain ⟨e, he, hcall⟩ := hcall
  refine Step.apply_of_error he ?_
  rw [Step.perform, hget, ok_bind, hcall]
  rfl

/-- The identity of what is held is none of those that are left. -/
theorem Lawful.serial_lt (hlawful : F.Lawful) {supply : Supply} {before after : List Step} {p : Nat}
    {c : Catalog ε} (hc : F.catalogAt? ((Session.blank supply).run before) p = some c) :
    c.owner.serial < ((Session.blank supply).run (before ++ after)).supply.next := by
  obtain ⟨made, -, hlineage⟩ := (F.lineage_blank supply).run hlawful before
  obtain ⟨k, -, hmade⟩ := hlineage.born p c hc
  have hlt := (hlineage.earlier k c.owner hmade).2
  rw [Session.run_append]
  exact Nat.lt_of_lt_of_le hlt (next_le_run after _)

theorem Lawful.handlesScoped (hlawful : F.Lawful) (supply : Supply) : F.HandlesScoped supply where
  kept before after p q name h issuer hissued hissuer hnames hserials hancestor := by
    obtain ⟨c, hc, hhandle⟩ := hlawful.handle?_of_issued hissued
    obtain rfl : c = issuer := Option.some.inj (hc.symm.trans hissuer)
    obtain ⟨howner, hname⟩ := Catalog.handle?_eq_some_iff.1 hhandle
    have hfits : h.inWords = h := by
      refine Handle.inWords_eq_iff.2 ⟨?_, ?_⟩
      · rw [howner]
        exact Nat.lt_of_lt_of_le (hlawful.serial_lt hc) hserials
      · exact Nat.lt_of_lt_of_le (List.getElem?_eq_some_iff.1 hname).1 hnames
    obtain ⟨d, hd, hgrows⟩ := (hlawful.grown_of_ancestor? after hancestor).after hc
    rw [Session.run_append, hfits]
    exact ⟨d, hd, Catalog.honours_of_handle? (hgrows.handle? hhandle)⟩
  rejected before after p q name h d hissued hd hserials hbirths := by
    obtain ⟨c, hc, hhandle⟩ := hlawful.handle?_of_issued hissued
    have hsame : h.inWords.owner = c.owner := by
      rw [← (Catalog.handle?_eq_some_iff.1 hhandle).1]
      refine Handle.owner_inWords ?_
      rw [(Catalog.handle?_eq_some_iff.1 hhandle).1]
      exact Nat.lt_of_lt_of_le (hlawful.serial_lt hc) hserials
    have howner : h.inWords.owner ≠ d.owner :=
      hsame ▸ hlawful.owner_ne_of_birth?_ne hc hd hbirths
    have hrejects := Catalog.rejects_of_owner_ne howner
    exact ⟨hrejects, fun r hused => hlawful.apply_of_rejects hd hrejects hused⟩

/-- The handles of node properties and of edge properties work where they should, and nowhere
else. -/
theorem handlesScoped_all (supply : Supply) :
    nodeFacet.HandlesScoped supply ∧ edgeFacet.HandlesScoped supply :=
  ⟨lawful_nodeFacet.handlesScoped supply, lawful_edgeFacet.handlesScoped supply⟩

/-- A handle works on a copy of a copy that has got more names since, and neither on its issuer
after a clearing nor on a graph made of parts, although both have the name at the same
position. -/
theorem handle_scoped_after_copies :
    let before : List Step :=
      [.make 0 .graph, .call 0 (.graph (.declareNodeProperty "turn" .null) rfl)]
    let after : List Step :=
      [.copy 0 1, .call 1 (.graph (.declareNodeProperty "state" .null) rfl), .copy 1 2, .clear 0,
        .call 0 (.graph (.declareNodeProperty "turn" (.int 1)) rfl),
        .make 3 (.parts 1 [] [.ofValues "turn" .null [(⟨0⟩, .int 5)]] [] .empty)]
    let w := (Session.blank ⟨0⟩).run (before ++ after)
    (∃ c, nodeFacet.catalogAt? w 2 = some c ∧ c.Honours "turn" ⟨⟨0⟩, 0⟩) ∧
      (∃ c, nodeFacet.catalogAt? w 0 = some c ∧ c.names = ["turn"] ∧ c.Rejects ⟨⟨0⟩, 0⟩) ∧
      ∃ c, nodeFacet.catalogAt? w 3 = some c ∧ c.names = ["turn"] ∧ c.Rejects ⟨⟨0⟩, 0⟩ := by
  intro before after w
  have hissued : nodeFacet.Issued (.blank ⟨0⟩) before 0 "turn" ⟨⟨0⟩, 0⟩ :=
    .inr ⟨[.make 0 .graph], _, _, rfl, rfl, rfl⟩
  refine ⟨?_, ⟨_, rfl, rfl, ?_⟩, ⟨_, rfl, rfl, ?_⟩⟩
  · exact (handlesScoped_all ⟨0⟩).1.kept before after 0 2 "turn" _ _ hissued rfl (by decide)
      (by decide) rfl
  · exact ((handlesScoped_all ⟨0⟩).1.rejected before after 0 0 "turn" _ _ hissued rfl (by decide)
      (by decide)).1
  · exact ((handlesScoped_all ⟨0⟩).1.rejected before after 0 3 "turn" _ _ hissued rfl (by decide)
      (by decide)).1

end StateGraph.Facet
