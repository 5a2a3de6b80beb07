import Mathlib.Data.List.TakeWhile
import StateGraph.Snapshot.File

set_option autoImplicit false

/-!
# What the name of a file selects

The format of a file is a matter of its path alone.  Of the components between slashes, those at
the end that are empty or a single point are passed over; the last one that is left is the name
of the file (`FilePath.EndsIn`).  What follows the last point of this name is the extension,
unless the name begins there (`FilePath.HasExtension`).

Both are looked for from the end: a list is taken apart at its last element that is not passed
over (`reverse_dropWhile_eq_cons_iff`).
-/

namespace StateGraph

/-- A list is looked through from its end as far as elements are passed over. -/
theorem reverse_dropWhile_eq_cons_iff {α : Type} (passed : α → Bool) (l : List α) (a : α)
    (before after : List α) :
    l.reverse.dropWhile passed = a :: before.reverse ∧ l.reverse.takeWhile passed = after.reverse ↔
      l = before ++ a :: after ∧ (∀ c ∈ after, passed c = true) ∧ passed a = false := by
  constructor
  · rintro ⟨hdrop, htake⟩
    refine ⟨?_, fun c hc => ?_, ?_⟩
    · have hsplit := congrArg List.reverse
        (List.takeWhile_append_dropWhile (p := passed) (l := l.reverse))
      rw [hdrop, htake, List.reverse_reverse] at hsplit
      rw [← hsplit]
      simp
    · rw [← List.mem_reverse, ← htake] at hc
      exact List.mem_takeWhile_imp hc
    · have hhead := List.head?_dropWhile_not passed l.reverse
      rwa [hdrop] at hhead
  · rintro ⟨rfl, hafter, ha⟩
    have hpassed : ∀ c ∈ after.reverse, passed c = true := fun c hc =>
      hafter c (List.mem_reverse.1 hc)
    have hreverse : (before ++ a :: after).reverse = after.reverse ++ a :: before.reverse := by simp
    rw [hreverse, List.dropWhile_append_of_pos hpassed, List.takeWhile_append_of_pos hpassed]
    simp [ha]

namespace FilePath

/-- The name at the end of a path, idle components passed over. -/
def EndsIn (p : FilePath) (name : Bytes) : Prop :=
  ∃ before idles, p.bytes.splitOn slash = before ++ name :: idles ∧
    (∀ c ∈ idles, c = [] ∨ c = [point]) ∧ ¬ (name = [] ∨ name = [point])

/-- The name at the end of a path is a name that is not empty, a point, and the extension. -/
def HasExtension (p : FilePath) (ext : String) : Prop :=
  ∃ stem, stem ≠ [] ∧ p.EndsIn (stem ++ point :: utf8 ext)

/-! ## Components -/

theorem splitAt_eq_splitOn (separator : UInt8) (bs : Bytes) :
    splitAt separator bs = bs.splitOn separator := by
  induction bs with
  | nil => rfl
  | cons b bs ih =>
    rw [splitAt, ih, List.splitOn_cons_eq_if_modifyHead]
    by_cases hb : b = separator
    · rw [if_pos hb, if_pos (beq_iff_eq.2 hb)]
    · rw [if_neg hb, if_neg fun h => hb (beq_iff_eq.1 h)]
      cases hparts : bs.splitOn separator with
      | nil => exact absurd hparts (List.splitOn_ne_nil separator bs)
      | cons part parts => rfl

theorem isIdle_iff (c : Bytes) : isIdle c = true ↔ c = [] ∨ c = [point] := decide_eq_true_iff

/-- The name at the end is what is met first, coming from the end. -/
theorem endsIn_iff (p : FilePath) (name : Bytes) :
    p.EndsIn name ↔ ∃ before, p.components.reverse.dropWhile isIdle = name :: before := by
  rw [EndsIn, ← splitAt_eq_splitOn, ← components]
  simp only [← isIdle_iff, Bool.not_eq_true]
  constructor
  · rintro ⟨before, idles, hsplit⟩
    exact ⟨before.reverse, ((reverse_dropWhile_eq_cons_iff isIdle _ name before idles).2 hsplit).1⟩
  · rintro ⟨before, hdrop⟩
    refine ⟨before.reverse, (p.components.reverse.takeWhile isIdle).reverse,
      (reverse_dropWhile_eq_cons_iff isIdle _ name _ _).1 ?_⟩
    rw [List.reverse_reverse, List.reverse_reverse]
    exact ⟨hdrop, rfl⟩

/-- The name that is found is the one at the end, unless it leads upwards. -/
theorem fileName?_eq_some_iff (p : FilePath) (name : Bytes) :
    p.fileName? = some name ↔ p.EndsIn name ∧ name ≠ above := by
  rw [endsIn_iff, fileName?]
  cases p.components.reverse.dropWhile isIdle with
  | nil => simp
  | cons found before =>
    by_cases hup : found = above
    · simp only [if_pos hup, List.cons.injEq, reduceCtorEq, false_iff]
      rintro ⟨⟨-, rfl, -⟩, hname⟩
      exact hname hup
    · simp only [if_neg hup, List.cons.injEq, Option.some.injEq]
      constructor
      · rintro rfl
        exact ⟨⟨before, rfl, rfl⟩, hup⟩
      · rintro ⟨⟨-, rfl, -⟩, -⟩
        rfl

/-! ## Extensions -/

/-- What follows the last point is the extension, if anything comes before the point. -/
theorem extensionOf?_eq_some_iff (name ext : Bytes) :
    extensionOf? name = some ext ↔
      ∃ stem, stem ≠ [] ∧ name = stem ++ point :: ext ∧ point ∉ ext := by
  have hsplit := reverse_dropWhile_eq_cons_iff (fun b => b != point) name
  simp only [bne_iff_ne, bne_eq_false_iff_eq] at hsplit
  simp only [extensionOf?]
  constructor
  · intro hext
    split at hext
    · cases hext
    · cases hext
    · rename_i hnil hsingle
      cases hext
      cases hdrop : name.reverse.dropWhile (fun b => b != point) with
      | nil => exact absurd hdrop hnil
      | cons b stem =>
        obtain ⟨hname, hnone, rfl⟩ := (hsplit b stem.reverse
          (name.reverse.takeWhile fun b => b != point).reverse).1 (by simp [hdrop])
        refine ⟨stem.reverse, fun hstem => ?_, hname, fun hmem => hnone _ hmem rfl⟩
        rw [List.reverse_eq_nil_iff.1 hstem] at hdrop
        exact hsingle _ hdrop
  · rintro ⟨stem, hstem, hname, hext⟩
    obtain ⟨hdrop, htake⟩ := (hsplit point stem ext).2 ⟨hname, fun c hc heq => hext (heq ▸ hc), rfl⟩
    rw [hdrop, htake, List.reverse_reverse]
    cases hreverse : stem.reverse with
    | nil => exact absurd (List.reverse_eq_nil_iff.1 hreverse) hstem
    | cons b before => rfl

/-- An extension is found under its name, if that is not empty and has no point. -/
theorem extension?_eq_some_iff (p : FilePath) {ext : String} (hext : utf8 ext ≠ [])
    (hpoint : point ∉ utf8 ext) : p.extension? = some (utf8 ext) ↔ p.HasExtension ext := by
  rw [extension?, Option.bind_eq_some_iff, HasExtension]
  constructor
  · rintro ⟨name, hname, hfound⟩
    obtain ⟨stem, hstem, rfl, -⟩ := (extensionOf?_eq_some_iff _ _).1 hfound
    exact ⟨stem, hstem, ((fileName?_eq_some_iff p _).1 hname).1⟩
  · rintro ⟨stem, hstem, hends⟩
    have hfound : extensionOf? (stem ++ point :: utf8 ext) = some (utf8 ext) :=
      (extensionOf?_eq_some_iff _ _).2 ⟨stem, hstem, rfl, hpoint⟩
    -- the name that leads upwards is too short
    have hup : stem ++ point :: utf8 ext ≠ above := by
      intro heq
      have hlength := congrArg List.length heq
      have hstemLength := List.length_pos_iff.2 hstem
      have hextLength := List.length_pos_iff.2 hext
      simp only [List.length_append, List.length_cons, above, List.length_nil] at hlength
      omega
    exact ⟨_, (fileName?_eq_some_iff p _).2 ⟨hends, hup⟩, hfound⟩

end FilePath

/-! ## Formats -/

namespace FileFormat

theorem extension?_eq_graph_iff (p : FilePath) :
    p.extension? = some (utf8 "graph") ↔ p.HasExtension "graph" :=
  p.extension?_eq_some_iff (by decide) (by decide)

theorem extension?_eq_graphml_iff (p : FilePath) :
    p.extension? = some (utf8 "graphml") ↔ p.HasExtension "graphml" :=
  p.extension?_eq_some_iff (by decide) (by decide)

theorem ofPath_of_graph {p : FilePath} (hext : p.HasExtension "graph") :
    ofPath p = .ok .binary := by
  rw [ofPath, (extension?_eq_graph_iff p).2 hext]
  exact if_pos rfl

theorem ofPath_of_graphml {p : FilePath} (hext : p.HasExtension "graphml") :
    ofPath p = .ok .graphml := by
  rw [ofPath, (extension?_eq_graphml_iff p).2 hext]
  exact (if_neg (by decide)).trans (if_pos rfl)

/-- No other extension is known. -/
theorem exists_ofPath_eq_error {p : FilePath} (hgraph : ¬ p.HasExtension "graph")
    (hgraphml : ¬ p.HasExtension "graphml") :
    ∃ ext, ofPath p = .error (.unsupportedExtension ext) := by
  rw [← extension?_eq_graph_iff] at hgraph
  rw [← extension?_eq_graphml_iff] at hgraphml
  rw [ofPath]
  cases hext : p.extension? with
  | none => exact ⟨_, rfl⟩
  | some ext =>
    rw [hext, Option.some.injEq] at hgraph hgraphml
    exact ⟨_, (if_neg hgraph).trans (if_neg hgraphml)⟩

example : [".graph", "..graph", "v1.graph/.", "v1.graph/..", "v1.graph.gz", "/graph"].map (fun s =>
    (ofPath (.ofString s)).toOption) =
      [none, some .binary, some .binary, none, none, none] := by decide

end FileFormat

end StateGraph
