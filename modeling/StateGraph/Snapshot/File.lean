import StateGraph.FileStore
import StateGraph.Snapshot.Frame

set_option autoImplicit false

/-!
# Snapshot files

The extension of a file selects its format before the file is looked at, so a
file with another extension is neither read nor written.  One format is
recognized although it cannot be used.
-/

namespace StateGraph

/-- The formats that extensions select. -/
inductive FileFormat where
  /-- framed snapshots -/
  | binary
  /-- recognized, but not available -/
  | graphml
  deriving DecidableEq, Repr

namespace FileFormat

/-- The extension of a format, with its point. -/
def extension : FileFormat → String
  | .binary => ".graph"
  | .graphml => ".graphml"

/-- The name of a format. -/
def name : FileFormat → String
  | .binary => "binary snapshot"
  | .graphml => "graphml"

/-- The format that the extension of a path selects. -/
def ofPath (p : FilePath) : Except SnapshotError FileFormat :=
  match p.extension? with
  | none => .error (.unsupportedExtension "")
  | some extension =>
    if extension = utf8 "graph" then .ok .binary
    else if extension = utf8 "graphml" then .ok .graphml
    else .error (.unsupportedExtension ("." ++ Utf8.readable extension))

/-- The bytes of a graph in a format. -/
def write (format : FileFormat) (g : Graph) : Except SnapshotError Bytes :=
  match format with
  | .binary => .ok (Snapshot.encode g)
  | .graphml => .error (.formatNotAvailable format.name)

/-- The graph in a byte sequence of a format. -/
def read (format : FileFormat) (owner : Identity) (bytes : Bytes) : Except SnapshotError Graph :=
  match format with
  | .binary => Snapshot.decode owner bytes
  | .graphml => .error (.formatNotAvailable format.name)

end FileFormat

namespace Graph

/-- Saves a graph to a file. -/
def save {S : Type} [FileStore S] (g : Graph) (store : S) (p : FilePath) :
    Except SnapshotError S := do
  let format ← FileFormat.ofPath p
  let bytes ← format.write g
  (FileStore.write store p bytes).mapError .io

/-- Loads a graph from a file; its handles carry the given identity. -/
def load (files : FileReader) (owner : Identity) (p : FilePath) : Except SnapshotError Graph := do
  match ← FileFormat.ofPath p with
  | .binary => FileFormat.binary.read owner (← (files p).mapError .io)
  | .graphml => .error (.formatNotAvailable FileFormat.graphml.name)

/-- Replaces a graph by the one in a file; a graph that cannot be loaded leaves
the old one as it is. -/
def restore (g : Graph) (files : FileReader) (owner : Identity) (p : FilePath) :
    Graph × Except SnapshotError Unit :=
  match load files owner p with
  | .ok loaded => (loaded, .ok ())
  | .error e => (g, .error e)

end Graph

end StateGraph
