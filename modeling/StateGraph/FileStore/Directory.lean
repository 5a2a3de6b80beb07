import StateGraph.FileStore
import StateGraph.OrderedMap

set_option autoImplicit false

/-!
# Directories

A directory with its subdirectories and files.  Only files are written; the
directories stay as they are.  Paths begin in the outermost directory and do not
leave it.
-/

namespace StateGraph

/-- The names that lead from the outermost directory to a file or directory. -/
abbrev Location : Type := List Bytes

/-- A directory with all that is in it. -/
structure Directory where
  /-- the directories inside -/
  directories : List Location
  /-- the files inside, with their contents -/
  files : OrderedMap Location Bytes

namespace Directory

/-- A directory that holds nothing but empty directories of the given names. -/
def ofNames (names : List String) : Directory := ⟨names.map fun name => [utf8 name], .empty⟩

/-- The longest name that a file can have, in bytes. -/
def nameLimit : Nat := 255

/-- The longest path that can be followed, in bytes, wherever it leads. -/
def pathLimit : Nat := 4095

/-- Whether a component can be the name of a file. -/
def isName (component : Bytes) : Bool :=
  !FilePath.isIdle component && component != FilePath.above &&
    decide (component.length ≤ nameLimit) && !component.contains 0

/-- Whether there is a directory at a location. -/
def isDirectory (d : Directory) (l : Location) : Bool := decide (l = [] ∨ l ∈ d.directories)

/-- The directory to which a component leads from another one. -/
def enter (d : Directory) (l : Location) (component : Bytes) : Option Location :=
  if FilePath.isIdle component then some l
  else if component = FilePath.above then if l = [] then none else some l.dropLast
  else if d.isDirectory (l ++ [component]) then some (l ++ [component])
  else none

/-- The location of the file that a path names: the last component is its name,
the others lead to its directory. -/
def locate (d : Directory) (p : FilePath) : Option Location :=
  match p.components.reverse with
  | [] => none
  | name :: before =>
    if decide (pathLimit < p.bytes.length) || p.bytes.head? = some FilePath.slash || !isName name
    then none
    else (before.reverse.foldlM d.enter []).map (· ++ [name])

/-- The bytes of a file. -/
def read (d : Directory) (p : FilePath) : Except String Bytes :=
  match d.locate p with
  | none => .error "No such file"
  | some l =>
    match d.files.get? l with
    | none => .error "No such file"
    | some bytes => .ok bytes

/-- Writes a file; a directory cannot be overwritten. -/
def write (d : Directory) (p : FilePath) (bytes : Bytes) : Except String Directory :=
  match d.locate p with
  | none => .error "No such directory"
  | some l =>
    if d.isDirectory l then .error "Is a directory"
    else .ok { d with files := d.files.insert l bytes }

instance : FileStore Directory := ⟨read, write⟩

end Directory

end StateGraph
