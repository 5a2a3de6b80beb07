import StateGraph.Proofs.Files
import StateGraph.Proofs.Lineage

set_option autoImplicit false

/-!
# Graphs that are replaced by those in files

In a session, the graph in a place is replaced by the one in a file (`Session.load`).  If
anything goes wrong, with the path, the file, its bytes, or the graph they describe, the session
is as it was, handles included.  Otherwise the place holds what the bytes stand for, and that has
a new identity, like anything made of bytes: to load is to make (`Session.Loads`).

So no handle that was given out before works on what was loaded (`Facet.Outdated`).
-/

namespace StateGraph

/-! ## Handles from before -/

/-- What a place holds turns away all handles that were given out during a run. -/
def Facet.Outdated {ε : Type} [DecidableEq ε] [Element ε] (F : Facet ε) (supply : Supply)
    (steps : List Step) (w : Session) (q : Nat) : Prop :=
  ∀ before after place name h, steps = before ++ after →
    F.Issued (.blank supply) before place name h → ∀ c, F.catalogAt? w q = some c →
      c.Rejects h ∧ ∀ r, F.used? r = some h → (Step.call q r).apply w = w

/-- What has the next identity after a run turns away all handles of the run. -/
theorem Facet.Lawful.outdated {ε : Type} [DecidableEq ε] [Element ε] {F : Facet ε}
    (hlawful : F.Lawful) {supply : Supply} {steps : List Step} {w : Session} {q : Nat}
    (hnew : ∀ c, F.catalogAt? w q = some c →
      c.owner = ⟨((Session.blank supply).run steps).supply.next⟩) :
      F.Outdated supply steps w q := by
  rintro before after place name h rfl hissued c hc
  obtain ⟨d, hd, hhandle⟩ := hlawful.handle?_of_issued hissued
  obtain ⟨made₁, -, hlineage₁⟩ := (F.lineage_blank supply).run hlawful before
  obtain ⟨made₂, hkept, hlineage₂⟩ := hlineage₁.run hlawful after
  rw [← Session.run_append] at hlineage₂
  obtain ⟨k, -, hmade⟩ := hlineage₁.born place d hd
  have hserial := (hlineage₂.earlier k d.owner (hkept k d.owner hmade)).2
  have howner : h.owner ≠ c.owner := by
    rw [(Catalog.handle?_eq_some_iff.1 hhandle).1, hnew c hc]
    intro heq
    rw [heq] at hserial
    exact Nat.lt_irrefl _ hserial
  have hrejects := Catalog.rejects_of_owner_ne howner
  exact ⟨hrejects, fun r hused => hlawful.apply_of_rejects hc hrejects hused⟩

namespace Session

/-- Replaces the graph in a place by the one in a file. -/
def load (w : Session) (files : FileReader) (q : Nat) (p : FilePath) :
    Session × Except StepFault Unit :=
  match w.held q with
  | some (.graph g) =>
    match g.restore files w.supply.take.1 p with
    | (loaded, .ok ()) => (w.putNew q (.graph loaded), .ok ())
    | (g, .error e) => (w.put q (.graph g), .error (.snapshot e))
  | _ => (w, .error .unfit)

variable {w : Session} {files : FileReader} {q : Nat} {p : FilePath}

/-- To put back what a place holds changes nothing. -/
theorem put_of_held {x : Holding} (hheld : w.held q = some x) : w.put q x = w := by
  have hsame : (fun q' => if q' = q then some x else w.held q') = w.held := by
    funext q'
    by_cases hq : q' = q
    · rw [if_pos hq, hq, hheld]
    · exact if_neg hq
  rw [put, hsame]

theorem load_of_error {g : Graph} (hheld : w.held q = some (.graph g)) {e : SnapshotError}
    (hload : Graph.load files w.supply.take.1 p = .error e) :
    w.load files q p = (w, .error (.snapshot e)) := by
  have hrestore : g.restore files w.supply.take.1 p = (g, .error e) := by
    rw [Graph.restore, hload]
  rw [load, hheld]
  simp only [hrestore, put_of_held hheld]

theorem load_of_ok {g loaded : Graph} (hheld : w.held q = some (.graph g))
    (hload : Graph.load files w.supply.take.1 p = .ok loaded) :
    w.load files q p = (w.putNew q (.graph loaded), .ok ()) := by
  have hrestore : g.restore files w.supply.take.1 p = (loaded, .ok ()) := by
    rw [Graph.restore, hload]
  rw [load, hheld]
  simp only [hrestore]

/-- Loading either fails and changes nothing, or puts the graph in the file in the place of
another one. -/
theorem load_cases (w : Session) (files : FileReader) (q : Nat) (p : FilePath) :
    (∃ e, w.load files q p = (w, .error e) ∧
      ¬ ((∃ g, w.held q = some (.graph g)) ∧ ∃ g, Graph.load files w.supply.take.1 p = .ok g)) ∨
    ∃ g loaded, w.held q = some (.graph g) ∧ Graph.load files w.supply.take.1 p = .ok loaded ∧
      w.load files q p = (w.putNew q (.graph loaded), .ok ()) := by
  cases hheld : w.held q with
  | none => exact .inl ⟨.unfit, by rw [load, hheld], fun h => by simp at h⟩
  | some x =>
    cases x with
    | nodeTable c => exact .inl ⟨.unfit, by rw [load, hheld], fun h => by simp at h⟩
    | edgeTable c => exact .inl ⟨.unfit, by rw [load, hheld], fun h => by simp at h⟩
    | graph g =>
      cases hload : Graph.load files w.supply.take.1 p with
      | error e => exact .inl ⟨_, load_of_error hheld hload, fun h => by simp at h⟩
      | ok loaded => exact .inr ⟨g, loaded, rfl, rfl, load_of_ok hheld hload⟩

theorem snd_load_eq_ok_iff (w : Session) (files : FileReader) (q : Nat) (p : FilePath) :
    (w.load files q p).2 = .ok () ↔ (∃ g, w.held q = some (.graph g)) ∧
      ∃ g, Graph.load files w.supply.take.1 p = .ok g := by
  obtain ⟨e, hfailed, hnot⟩ | ⟨g, loaded, hheld, hload, hdone⟩ := w.load_cases files q p
  · rw [hfailed]
    exact iff_of_false nofun hnot
  · rw [hdone]
    exact iff_of_true rfl ⟨⟨g, hheld⟩, loaded, hload⟩

/-- To put a graph that was read from bytes in a place is to make it there. -/
theorem apply_make_bytes {bytes : Bytes} {g : Graph}
    (hdecode : Snapshot.decode w.supply.take.1 bytes = .ok g) :
    (Step.make q (.bytes checksum bytes)).apply w = w.putNew q (.graph g) := by
  have hread : Snapshot.decodeWith checksum w.supply.take.1 bytes = .ok g := hdecode
  have hperform : (Step.make q (.bytes checksum bytes)).perform w =
      .ok (w.putNew q (.graph g), .done) := by
    rw [Step.perform, Making.build, hread]
    rfl
  exact Step.apply_of_ok hperform

/-- What loading into a place comes to. -/
structure Loads (w : Session) (files : FileReader) (q : Nat) (p : FilePath) : Prop where
  accepted : (w.load files q p).2 = .ok () ↔ (∃ g, w.held q = some (.graph g)) ∧
    p.HasExtension "graph" ∧
      ∃ bytes g, files p = .ok bytes ∧ Snapshot.decode w.supply.take.1 bytes = .ok g
  /-- whatever fails, nothing is changed -/
  failed : ∀ e, (w.load files q p).2 = .error e → (w.load files q p).1 = w
  /-- the place holds what the bytes of the file stand for, as if it had been made of them -/
  replaced : (w.load files q p).2 = .ok () → ∃ bytes g,
    files p = .ok bytes ∧ Snapshot.decode w.supply.take.1 bytes = .ok g ∧
      (w.load files q p).1.held q = some (.graph g) ∧
      (∀ q', q' ≠ q → (w.load files q p).1.held q' = w.held q') ∧
      (w.load files q p).1 = (Step.make q (.bytes checksum bytes)).apply w

theorem loads (w : Session) (files : FileReader) (q : Nat) (p : FilePath) : w.Loads files q p where
  accepted := by
    rw [snd_load_eq_ok_iff]
    simp only [Graph.load_eq_ok_iff, exists_and_left]
    rw [exists_comm]
    simp only [exists_and_left]
  failed e he := by
    obtain ⟨fault, hfailed, -⟩ | ⟨g, loaded, -, -, hdone⟩ := w.load_cases files q p
    · rw [hfailed]
    · rw [hdone] at he
      cases he
  replaced hok := by
    obtain ⟨fault, hfailed, -⟩ | ⟨g, loaded, -, hload, hdone⟩ := w.load_cases files q p
    · rw [hfailed] at hok
      cases hok
    · obtain ⟨-, bytes, hread, hdecode⟩ := (Graph.load_eq_ok_iff _ _ p loaded).1 hload
      rw [hdone]
      exact ⟨bytes, loaded, hread, hdecode, if_pos rfl, fun q' hq => if_neg hq,
        (apply_make_bytes hdecode).symm⟩

/-- What a place holds turns away the handles of properties of nodes, and of edges, that were
given out during a run. -/
def HandlesOutdated (supply : Supply) (steps : List Step) (w : Session) (q : Nat) : Prop :=
  nodeFacet.Outdated supply steps w q ∧ edgeFacet.Outdated supply steps w q

/-- What was loaded turns away all handles that were given out before. -/
theorem handlesOutdated_of_load {supply : Supply} {steps : List Step}
    (hok : (((blank supply).run steps).load files q p).2 = .ok ()) :
    HandlesOutdated supply steps (((blank supply).run steps).load files q p).1 q := by
  obtain ⟨bytes, g, -, hdecode, hheld, -⟩ := (loads _ files q p).replaced hok
  obtain ⟨s, hmade⟩ := Graph.ofParts_of_decodeWith hdecode
  obtain ⟨hnodes, hedges⟩ := Graph.owner_ofParts hmade
  refine ⟨lawful_nodeFacet.outdated fun c hc => ?_, lawful_edgeFacet.outdated fun c hc => ?_⟩
  · rw [Facet.catalogAt?, hheld] at hc
    cases hc
    exact hnodes
  · rw [Facet.catalogAt?, hheld] at hc
    cases hc
    exact hedges

end Session

/-! ## Files and graphs -/

namespace Graph

section Stores

variable {S : Type} [FileStore S] [LawfulFileStore S]

/-- What was saved is loaded again, with the same content. -/
def Reloads (g : Graph) (s : S) (p : FilePath) : Prop :=
  ∀ s', g.save s p = .ok s' → ∀ owner, ∃ g', load (FileStore.read s') owner p = .ok g' ∧
    Snapshot.ofGraph g' = Snapshot.ofGraph g

/-- Under a path of a snapshot every graph is saved, under other paths none, and none is loaded.
What was saved is loaded again, whatever the history of the graph is.  In a session, loading
replaces all of a graph or nothing, and what was loaded works with no handle from before. -/
theorem filed_run {g : Graph} (horigin : g.Origin) (requests : List Request) (s : S)
    (p : FilePath) :
    (∀ h : Graph, h.Filed s p) ∧
      ((Snapshot.ofGraph (g.run requests)).Sized → (g.run requests).Reloads s p) ∧
      (∀ w q, Session.Loads w (FileStore.read s) q p) ∧
      ∀ supply steps q,
        (((Session.blank supply).run steps).load (FileStore.read s) q p).2 = .ok () →
          Session.HandlesOutdated supply steps
            (((Session.blank supply).run steps).load (FileStore.read s) q p).1 q := by
  have hwell : (g.run requests).WellFormed := horigin.wellFormed.run requests
  refine ⟨fun h => h.filed s p, fun hsized s' hsave owner => ?_, fun w q => w.loads _ q p,
    fun supply steps q => Session.handlesOutdated_of_load⟩
  rw [load_of_save hsave]
  exact hwell.exists_decode_encode hsized owner

end Stores

/-- A path through a subdirectory, with two points in the name. -/
def gridPath : FilePath := .ofString "sub/grid.v1.graph"

theorem hasExtension_gridPath : gridPath.HasExtension "graph" :=
  ⟨utf8 "grid.v1", by decide, [utf8 "sub"], [], by decide, by decide, by decide⟩

/-- A graph is saved, and loaded into the place of a graph with a property that it has not; the
handle of this property is turned away. -/
theorem filed_run_of_parts :
    let w := (Session.blank ⟨0⟩).run
      [.make 0 .graph, .call 0 (.graph (.declareNodeProperty "stale" .null) rfl)]
    ∃ g d loaded, ofParts ⟨0⟩ 2 [(⟨1⟩, ⟨0⟩, 1)] [.ofValues "state" .null [(⟨1⟩, .int 5)]]
        [] .empty = .ok g ∧
      (g.run [.addEdge ⟨0⟩ ⟨1⟩]).save (Directory.ofNames ["sub"]) gridPath = .ok d ∧
      (w.load (FileStore.read d) 0 gridPath).2 = .ok () ∧
      (w.load (FileStore.read d) 0 gridPath).1.held 0 = some (.graph loaded) ∧
      Snapshot.ofGraph loaded = Snapshot.ofGraph (g.run [.addEdge ⟨0⟩ ⟨1⟩]) ∧
      loaded.nodeCatalog.Rejects ⟨⟨0⟩, 0⟩ := by
  intro w
  have hmade : ofParts ⟨0⟩ 2 [(⟨1⟩, ⟨0⟩, 1)] [.ofValues "state" .null [(⟨1⟩, .int 5)]] [] .empty =
    .ok _ := rfl
  have hfiled := fun d : Directory => filed_run (.parts hmade) [.addEdge ⟨0⟩ ⟨1⟩] d gridPath
  obtain ⟨hsaves, hreloads, -⟩ := hfiled (.ofNames ["sub"])
  obtain ⟨d, hsave⟩ := (hsaves _).saved.2 ⟨hasExtension_gridPath, [], _, rfl⟩
  obtain ⟨loaded, hload, hsame⟩ := hreloads (by decide) d hsave ⟨1⟩
  obtain ⟨-, -, hloads, houtdated⟩ := hfiled d
  obtain ⟨hext, bytes, hread, hdecode⟩ := (load_eq_ok_iff _ _ gridPath loaded).1 hload
  have hok : (w.load (FileStore.read d) 0 gridPath).2 = .ok () :=
    (hloads w 0).accepted.2 ⟨⟨_, rfl⟩, hext, bytes, loaded, hread, hdecode⟩
  obtain ⟨bytes', loaded', hread', hdecode', hheld, -⟩ := (hloads w 0).replaced hok
  have hbytes : bytes' = bytes := Except.ok.inj (hread'.symm.trans hread)
  rw [hbytes] at hdecode'
  have hloaded : loaded' = loaded := Except.ok.inj (hdecode'.symm.trans hdecode)
  rw [hloaded] at hheld
  have hissued : nodeFacet.Issued (.blank ⟨0⟩)
      [.make 0 .graph, .call 0 (.graph (.declareNodeProperty "stale" .null) rfl)] 0 "stale"
        ⟨⟨0⟩, 0⟩ :=
    .inr ⟨[.make 0 .graph], _, _, rfl, rfl, rfl⟩
  have hrejects := ((houtdated ⟨0⟩ _ 0 hok).1 _ [] 0 "stale" ⟨⟨0⟩, 0⟩
    (List.append_nil _).symm hissued
    loaded.nodeCatalog (by rw [Facet.catalogAt?, hheld]; rfl)).1
  exact ⟨_, d, loaded, hmade, hsave, hok, hheld, hsame, hrejects⟩

end Graph

end StateGraph
