import StateGraph.Text.Utf8

set_option autoImplicit false

/-!
# Paths of files

A path is a sequence of bytes in which slashes separate components.  Components
that are empty or a single point lead nowhere, so they are passed over at the end
of a path when its file name is looked for.
-/

namespace StateGraph

/-- The path of a file. -/
structure FilePath where
  bytes : Bytes
  deriving DecidableEq, Repr, Inhabited

namespace FilePath

/-- The path with the given text. -/
def ofString (s : String) : FilePath := ⟨utf8 s⟩

/-- The readable text of a path. -/
def display (p : FilePath) : String := Utf8.readable p.bytes

/-- The byte that separates components. -/
def slash : UInt8 := 0x2F

/-- The byte that begins an extension. -/
def point : UInt8 := 0x2E

/-- The parts between the occurrences of a byte, at least one. -/
def splitAt (separator : UInt8) : Bytes → List Bytes
  | [] => [[]]
  | b :: bs =>
    if b = separator then [] :: splitAt separator bs
    else
      match splitAt separator bs with
      | [] => [[b]]
      | part :: parts => (b :: part) :: parts

/-- The component that stands for the directory it is in. -/
def here : Bytes := [point]

/-- The component that stands for the directory above. -/
def above : Bytes := [point, point]

/-- The components, among them those that are empty. -/
def components (p : FilePath) : List Bytes := splitAt slash p.bytes

/-- Whether a component leads nowhere. -/
def isIdle (component : Bytes) : Bool := decide (component = [] ∨ component = here)

/-- The last component that leads somewhere, unless it leads upwards. -/
def fileName? (p : FilePath) : Option Bytes :=
  match p.components.reverse.dropWhile isIdle with
  | [] => none
  | name :: _ => if name = above then none else some name

/-- What follows the last point of a name, unless nothing comes before it. -/
def extensionOf? (name : Bytes) : Option Bytes :=
  let reversed := name.reverse
  match reversed.dropWhile fun b => b != point with
  | [] => none
  | [_] => none
  | _ => some (reversed.takeWhile fun b => b != point).reverse

/-- The extension of the file name. -/
def extension? (p : FilePath) : Option Bytes := p.fileName?.bind extensionOf?

end FilePath

end StateGraph
