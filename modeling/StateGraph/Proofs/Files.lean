import StateGraph.FileStore.Directory
import StateGraph.Proofs.FilePaths
import StateGraph.Proofs.RoundTrip

set_option autoImplicit false

/-!
# Graphs in files

A graph is saved and loaded under a path, whose extension is looked at before the file is
(`Graph.Filed`).  A path with another extension is turned away as it is, whatever the store holds
under it and permits.

What is relied on is that a store keeps what is written and leaves other files alone
(`LawfulFileStore`).  Saving and loading are then also carried out step by step: the file is
created, or cut to nothing, before the bytes of the graph are known (`FileTask.save`), and this
makes no difference.

Loading what was saved is decoding what was encoded (`Graph.load_of_save`).  A graph comes back
with the same snapshot if it is well-formed, and is refused if its counter of edges is ahead.
-/

namespace StateGraph

/-! ## Stores -/

/-- Stores that keep what is written.  Several paths may name one file; whether a file may be
written does not depend on the bytes, and writing it again replaces all of it. -/
class LawfulFileStore (S : Type) [FileStore S] where
  /-- whether two paths name the same file -/
  SameFile : S → FilePath → FilePath → Prop
  sameFile_refl : ∀ s p, SameFile s p p
  read_of_same : ∀ {s s' : S} {p q : FilePath} {bytes : Bytes},
    FileStore.write s p bytes = .ok s' → SameFile s p q → FileStore.read s' q = .ok bytes
  read_of_other : ∀ {s s' : S} {p q : FilePath} {bytes : Bytes},
    FileStore.write s p bytes = .ok s' → ¬ SameFile s p q →
      FileStore.read s' q = FileStore.read s q
  refuses : ∀ {s : S} {p : FilePath} {bytes : Bytes} {reason : String},
    FileStore.write s p bytes = .error reason → ∀ bytes', FileStore.write s p bytes' = .error reason
  overwrites : ∀ {s s' : S} {p : FilePath} {bytes : Bytes},
    FileStore.write s p bytes = .ok s' →
      ∀ bytes', FileStore.write s' p bytes' = FileStore.write s p bytes'

namespace Directory

theorem write_eq_ok_iff (d d' : Directory) (p : FilePath) (bytes : Bytes) :
    d.write p bytes = .ok d' ↔ ∃ l, d.locate p = some l ∧ d.isDirectory l = false ∧
      d' = { d with files := d.files.insert l bytes } := by
  unfold write
  cases d.locate p with
  | none => simp
  | some l =>
    simp only [Option.some.injEq, exists_eq_left']
    cases d.isDirectory l with
    | false => simp [eq_comm]
    | true => simp

/-- A file can be written unless its path leads nowhere or to a directory. -/
theorem write_eq_error (d : Directory) {p : FilePath} {bytes : Bytes} {reason : String}
    (hwrite : d.write p bytes = .error reason) (bytes' : Bytes) :
    d.write p bytes' = .error reason := by
  unfold write at hwrite ⊢
  cases hlocate : d.locate p with
  | none =>
    rw [hlocate] at hwrite
    exact hwrite
  | some l =>
    rw [hlocate] at hwrite
    cases hdirectory : d.isDirectory l with
    | false => simp [hdirectory] at hwrite
    | true => simpa [hdirectory] using hwrite

/-- Two paths name the same file if they lead to one location. -/
instance : LawfulFileStore Directory where
  SameFile d p q := d.locate p = d.locate q
  sameFile_refl _ _ := rfl
  read_of_same {d d' p q bytes} hwrite hsame := by
    obtain ⟨l, hlocate, -, rfl⟩ := (write_eq_ok_iff d d' p bytes).1 hwrite
    have hfound : ({ d with files := d.files.insert l bytes } : Directory).locate q = some l :=
      hsame.symm.trans hlocate
    show read _ q = _
    rw [read, hfound]
    simp only [OrderedMap.get?_insert, if_true]
  read_of_other {d d' p q bytes} hwrite hother := by
    obtain ⟨l, hlocate, -, rfl⟩ := (write_eq_ok_iff d d' p bytes).1 hwrite
    have hkept : ({ d with files := d.files.insert l bytes } : Directory).locate q = d.locate q :=
      rfl
    show read _ q = read d q
    rw [read, read, hkept]
    cases hfound : d.locate q with
    | none => rfl
    | some l' =>
      have hne : l ≠ l' := fun heq => hother (by rw [hlocate, hfound, heq])
      simp only [OrderedMap.get?_insert, if_neg hne]
  refuses {d p bytes reason} hwrite := d.write_eq_error hwrite
  overwrites {d d' p bytes} hwrite bytes' := by
    obtain ⟨l, hlocate, hfile, rfl⟩ := (write_eq_ok_iff d d' p bytes).1 hwrite
    have hagain : d.write p bytes' = .ok { d with files := d.files.insert l bytes' } :=
      (write_eq_ok_iff d _ p bytes').2 ⟨l, hlocate, hfile, rfl⟩
    refine Eq.trans ?_ hagain.symm
    refine (write_eq_ok_iff _ _ p bytes').2 ⟨l, hlocate, hfile, ?_⟩
    rw [OrderedMap.insert_insert]

end Directory

/-! ## Paths -/

/-- A path is turned away as it is: nothing is saved or loaded under it, in any store. -/
structure FilePath.TurnedAway (p : FilePath) (e : SnapshotError) : Prop where
  save : ∀ {S : Type} [FileStore S] (g : Graph) (s : S), g.save s p = .error e
  load : ∀ (files : FileReader) (owner : Identity), Graph.load files owner p = .error e

namespace FilePath

variable {p : FilePath}

/-- A format that is recognized, but not available. -/
theorem turnedAway_of_graphml (hext : p.HasExtension "graphml") :
    p.TurnedAway (.formatNotAvailable "graphml") where
  save g s := by
    rw [Graph.save, FileFormat.ofPath_of_graphml hext]
    rfl
  load files owner := by
    rw [Graph.load, FileFormat.ofPath_of_graphml hext]
    rfl

/-- An extension that is not known, or none at all. -/
theorem exists_turnedAway (hgraph : ¬ p.HasExtension "graph")
    (hgraphml : ¬ p.HasExtension "graphml") :
    ∃ ext, p.TurnedAway (.unsupportedExtension ext) := by
  obtain ⟨ext, hformat⟩ := FileFormat.exists_ofPath_eq_error hgraph hgraphml
  refine ⟨ext, ⟨fun g s => ?_, fun files owner => ?_⟩⟩
  · rw [Graph.save, hformat]
    rfl
  · rw [Graph.load, hformat]
    rfl

/-- A path with any other extension than that of snapshots is turned away. -/
theorem exists_turnedAway_of_not_graph (hgraph : ¬ p.HasExtension "graph") :
    ∃ e, p.TurnedAway e := by
  by_cases hgraphml : p.HasExtension "graphml"
  · exact ⟨_, turnedAway_of_graphml hgraphml⟩
  · obtain ⟨ext, haway⟩ := exists_turnedAway hgraph hgraphml
    exact ⟨_, haway⟩

end FilePath

namespace Graph

variable {S : Type} [FileStore S]

/-- A graph is saved if the extension is that of snapshots and the store lets its bytes be
written. -/
theorem save_eq_ok_iff (g : Graph) (s s' : S) (p : FilePath) :
    g.save s p = .ok s' ↔
      p.HasExtension "graph" ∧ FileStore.write s p (Snapshot.encode g) = .ok s' := by
  by_cases hext : p.HasExtension "graph"
  · rw [save, FileFormat.ofPath_of_graph hext, and_iff_right hext]
    exact mapError_eq_ok_iff
  · obtain ⟨e, haway⟩ := FilePath.exists_turnedAway_of_not_graph hext
    rw [haway.save g s]
    exact iff_of_false nofun fun hsaved => hext hsaved.1

/-- Under a path of a snapshot, what a file holds is decoded. -/
theorem load_of_graph {p : FilePath} (hext : p.HasExtension "graph") (files : FileReader)
    (owner : Identity) :
    load files owner p = (files p).mapError .io >>= fun bytes => Snapshot.decode owner bytes := by
  rw [load, FileFormat.ofPath_of_graph hext]
  rfl

/-- From the bytes of a graph, what its snapshot holds is loaded. -/
theorem load_of_encode {g : Graph} {files : FileReader} {p : FilePath}
    (hext : p.HasExtension "graph") (hread : files p = .ok (Snapshot.encode g))
    (hsized : (Snapshot.ofGraph g).Sized) (owner : Identity) :
    load files owner p = (Snapshot.ofGraph g).toGraph owner := by
  rw [load_of_graph hext, hread]
  exact (ok_bind (Snapshot.encode g) _).trans (decode_encode hsized owner)

/-- A graph is loaded if the extension is that of snapshots and the file can be read and
decoded. -/
theorem load_eq_ok_iff (files : FileReader) (owner : Identity) (p : FilePath) (g : Graph) :
    load files owner p = .ok g ↔ p.HasExtension "graph" ∧
      ∃ bytes, files p = .ok bytes ∧ Snapshot.decode owner bytes = .ok g := by
  by_cases hext : p.HasExtension "graph"
  · rw [load_of_graph hext, and_iff_right hext]
    exact bind_eq_ok_iff.trans (exists_congr fun bytes => and_congr_left' mapError_eq_ok_iff)
  · obtain ⟨e, haway⟩ := FilePath.exists_turnedAway_of_not_graph hext
    rw [haway.load files owner]
    exact iff_of_false nofun fun hloaded => hext hloaded.1

end Graph

/-! ## Step by step -/

/-- A task on a store of files, which it changes step by step.  What was changed before a failure
stays changed. -/
abbrev FileTask (S α : Type) : Type := ExceptT SnapshotError (StateM S) α

namespace FileTask

variable {S α : Type}

/-- How a task ends, and the store that it leaves behind. -/
def outcome (task : FileTask S α) (s : S) : Except SnapshotError α × S :=
  Id.run (StateT.run (ExceptT.run task) s)

variable [FileStore S]

/-- Reads a file. -/
def read (p : FilePath) : FileTask S Bytes := do
  MonadExcept.ofExcept ((FileStore.read (← get) p).mapError .io)

/-- Writes a file. -/
def write (p : FilePath) (bytes : Bytes) : FileTask S Unit := do
  set (← MonadExcept.ofExcept ((FileStore.write (← get) p bytes).mapError .io) : S)

/-- Creates a file; one that is there is cut to nothing. -/
def create (p : FilePath) : FileTask S Unit := write p []

/-- Saves a graph.  A file is created before its bytes are known, but only for a format that can
be written. -/
def save (g : Graph) (p : FilePath) : FileTask S Unit := do
  match ← MonadExcept.ofExcept (FileFormat.ofPath p) with
  | .binary =>
    create p
    write p (← MonadExcept.ofExcept (FileFormat.binary.write g))
  | .graphml =>
    let _ ← MonadExcept.ofExcept (FileFormat.graphml.write g)

/-- Loads a graph.  No file is opened for a format that cannot be read. -/
def load (owner : Identity) (p : FilePath) : FileTask S Graph := do
  match ← MonadExcept.ofExcept (FileFormat.ofPath p) with
  | .binary => MonadExcept.ofExcept (FileFormat.binary.read owner (← read p))
  | .graphml => MonadExcept.ofExcept (FileFormat.graphml.read owner [])

theorem outcome_read_bind (p : FilePath) (next : Bytes → FileTask S α) (s : S) :
    (read p >>= next).outcome s = match FileStore.read s p with
      | .ok bytes => (next bytes).outcome s
      | .error reason => (.error (.io reason), s) := by
  show outcome (MonadExcept.ofExcept ((FileStore.read s p).mapError .io) >>= next) s = _
  cases FileStore.read s p <;> rfl

theorem outcome_write (p : FilePath) (bytes : Bytes) (s : S) :
    (write p bytes).outcome s = match FileStore.write s p bytes with
      | .ok s' => (.ok (), s')
      | .error reason => (.error (.io reason), s) := by
  show outcome (MonadExcept.ofExcept ((FileStore.write s p bytes).mapError .io) >>= fun s' =>
    set s') s = _
  cases FileStore.write s p bytes <;> rfl

theorem outcome_write_bind (p : FilePath) (bytes : Bytes) (next : Unit → FileTask S α) (s : S) :
    (write p bytes >>= next).outcome s = match FileStore.write s p bytes with
      | .ok s' => (next ()).outcome s'
      | .error reason => (.error (.io reason), s) := by
  show outcome ((MonadExcept.ofExcept ((FileStore.write s p bytes).mapError .io) >>= fun s' =>
    set s') >>= next) s = _
  cases FileStore.write s p bytes <;> rfl

/-- Loading looks at the files as they are and changes none. -/
theorem outcome_load (owner : Identity) (p : FilePath) (s : S) :
    (load owner p).outcome s = (Graph.load (FileStore.read s) owner p, s) := by
  unfold load Graph.load
  cases FileFormat.ofPath p with
  | error e => rfl
  | ok format =>
    cases format with
    | graphml => rfl
    | binary =>
      refine (outcome_read_bind p (fun bytes =>
        MonadExcept.ofExcept (FileFormat.binary.read owner bytes)) s).trans ?_
      cases FileStore.read s p with
      | error reason => rfl
      | ok bytes =>
        show outcome (MonadExcept.ofExcept (FileFormat.binary.read owner bytes)) s =
          (FileFormat.binary.read owner bytes, s)
        cases FileFormat.binary.read owner bytes <;> rfl

/-- Saving ends as if the bytes were written at once: if a file can be created it can also be
written, and nothing is left of what was created. -/
theorem outcome_save [LawfulFileStore S] (g : Graph) (p : FilePath) (s : S) :
    (save g p).outcome s = match g.save s p with
      | .ok s' => (.ok (), s')
      | .error e => (.error e, s) := by
  unfold save
  cases hformat : FileFormat.ofPath p with
  | error e =>
    rw [Graph.save, hformat]
    rfl
  | ok format =>
    cases format with
    | graphml =>
      rw [Graph.save, hformat]
      rfl
    | binary =>
      have hsave : g.save s p = (FileStore.write s p (Snapshot.encode g)).mapError .io := by
        rw [Graph.save, hformat]
        rfl
      rw [hsave]
      refine (outcome_write_bind p [] (fun _ => write p (Snapshot.encode g)) s).trans ?_
      cases hcreate : FileStore.write s p [] with
      | error reason =>
        rw [LawfulFileStore.refuses hcreate (Snapshot.encode g)]
        rfl
      | ok s' =>
        -- the file that was created is written again, in the store that has it
        show (write p (Snapshot.encode g)).outcome s' = _
        rw [outcome_write, LawfulFileStore.overwrites hcreate]
        cases hfill : FileStore.write s p (Snapshot.encode g) with
        | ok s'' => rfl
        | error reason =>
          have hrefused := LawfulFileStore.refuses hfill []
          rw [hcreate] at hrefused
          cases hrefused

end FileTask

/-! ## Saving and loading -/

/-- A store permits a file to be written. -/
def Permits {S : Type} [FileStore S] (s : S) (p : FilePath) : Prop :=
  ∃ bytes s', FileStore.write s p bytes = .ok s'

namespace Graph

variable {S : Type} [FileStore S] [LawfulFileStore S]

open LawfulFileStore (SameFile)

/-- What comes of saving a graph under a path, and of loading what is there. -/
structure Filed (g : Graph) (s : S) (p : FilePath) : Prop where
  saved : (∃ s', g.save s p = .ok s') ↔ p.HasExtension "graph" ∧ Permits s p
  /-- the file holds the bytes of the graph, and other files are as before -/
  kept : ∀ s', g.save s p = .ok s' → ∀ q,
    (SameFile s p q → FileStore.read s' q = .ok (Snapshot.encode g)) ∧
      (¬ SameFile s p q → FileStore.read s' q = FileStore.read s q)
  notAvailable : p.HasExtension "graphml" → p.TurnedAway (.formatNotAvailable "graphml")
  unsupported : ¬ p.HasExtension "graph" → ¬ p.HasExtension "graphml" →
    ∃ ext, p.TurnedAway (.unsupportedExtension ext)
  /-- step by step, a failure leaves all files as they are -/
  saveTask : (FileTask.save g p).outcome s = match g.save s p with
    | .ok s' => (.ok (), s')
    | .error e => (.error e, s)
  /-- step by step, no file is changed -/
  loadTask : ∀ owner, (FileTask.load owner p).outcome s = (load (FileStore.read s) owner p, s)

/-- Whether a file may be written does not depend on the bytes. -/
theorem permits_iff (s : S) (p : FilePath) (bytes : Bytes) :
    Permits s p ↔ ∃ s', FileStore.write s p bytes = .ok s' := by
  constructor
  · rintro ⟨bytes', s', hwrite⟩
    cases hother : FileStore.write s p bytes with
    | ok s'' => exact ⟨s'', rfl⟩
    | error reason =>
      rw [LawfulFileStore.refuses hother bytes'] at hwrite
      cases hwrite
  · rintro ⟨s', hwrite⟩
    exact ⟨bytes, s', hwrite⟩

theorem filed (g : Graph) (s : S) (p : FilePath) : g.Filed s p where
  saved := by
    rw [permits_iff s p (Snapshot.encode g), ← exists_and_left]
    exact exists_congr fun s' => save_eq_ok_iff g s s' p
  kept s' hsave q := by
    have hwrite := ((save_eq_ok_iff g s s' p).1 hsave).2
    exact ⟨LawfulFileStore.read_of_same hwrite, LawfulFileStore.read_of_other hwrite⟩
  notAvailable := FilePath.turnedAway_of_graphml
  unsupported := FilePath.exists_turnedAway
  saveTask := FileTask.outcome_save g p s
  loadTask owner := FileTask.outcome_load owner p s

/-! ## Loading what was saved -/

/-- Under the path of a file that was saved, the bytes of the graph are decoded. -/
theorem load_of_save {g : Graph} {s s' : S} {p : FilePath} (hsave : g.save s p = .ok s')
    (owner : Identity) :
    load (FileStore.read s') owner p = Snapshot.decode owner (Snapshot.encode g) := by
  obtain ⟨hext, hwrite⟩ := (save_eq_ok_iff g s s' p).1 hsave
  rw [load_of_graph hext,
    LawfulFileStore.read_of_same hwrite (LawfulFileStore.sameFile_refl s p)]
  exact ok_bind (Snapshot.encode g) _

omit [FileStore S] [LawfulFileStore S]

/-- The bytes of a well-formed graph hold a graph with the same snapshot. -/
theorem WellFormed.exists_decode_encode {g : Graph} (hwell : g.WellFormed)
    (hsized : (Snapshot.ofGraph g).Sized) (owner : Identity) :
    ∃ g', Snapshot.decode owner (Snapshot.encode g) = .ok g' ∧
      Snapshot.ofGraph g' = Snapshot.ofGraph g := by
  obtain ⟨b, hrebuilt, hmade⟩ := Snapshot.toGraph_ofGraph hwell
  exact ⟨g.rebuilt b owner, (decode_encode hsized owner).trans (hmade owner),
    Snapshot.ofGraph_rebuilt hrebuilt owner⟩

end Graph

end StateGraph
