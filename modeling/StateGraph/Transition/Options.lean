import StateGraph.Json.Reader
import StateGraph.Transition.Error

set_option autoImplicit false

/-!
# Options of a compilation

The one option is how far the sum of a distribution may be from 1.  It is read
from JSON text, where it may be left out; whether its value makes sense is
decided when it is used.
-/

namespace StateGraph

/-- The options of a compilation. -/
structure CompileOptions where
  tolerance : Binary64
  deriving DecidableEq, Repr

namespace CompileOptions

/-- Sums may be off by `1e-9`. -/
def standard : CompileOptions := ⟨⟨0x3E112E0BE826D695⟩⟩

instance : Inhabited CompileOptions := ⟨standard⟩

/-- Whether the tolerance is at least 0 and below 1. -/
def isValid (o : CompileOptions) : Bool :=
  o.tolerance.isFinite && Binary64.zero.le o.tolerance && o.tolerance.lt .one

/-- Fails unless the options make sense. -/
def validate (o : CompileOptions) : Except CompileError Unit :=
  if o.isValid then .ok () else .error (.invalidTolerance o.tolerance)

/-- The name of the tolerance in JSON. -/
def toleranceName : String := "probability_tolerance"

/-- The document of options. -/
def toJson (o : CompileOptions) : Json := .object [(toleranceName, .ofBinary64 o.tolerance)]

/-- The options that a document stands for: an object, of which other members are
ignored, or an array of at most one item. -/
def ofTree? : JsonTree → Option CompileOptions
  | .array [] => some standard
  | .array [t] => t.float?.map CompileOptions.mk
  | .object members => do
    let members ← (JsonTree.object members).members?
    match ← JsonTree.field? toleranceName members with
    | none => return standard
    | some t => t.float?.map CompileOptions.mk
  | _ => none

/-- Reads options from a text. -/
def ofJson? (text : String) : Option CompileOptions := do ofTree? (← JsonTree.read? text)

end CompileOptions

end StateGraph
