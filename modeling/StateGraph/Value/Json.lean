import StateGraph.Json.Reader
import StateGraph.Value

set_option autoImplicit false

/-!
# Values as JSON

There are two forms.  The plain form (`Value.toJson`) is for reports: numbers are
JSON numbers, label sets are arrays, and a number that JSON does not have becomes
`null`.  The tagged form (`Value.toTagged`, `Value.ofTagged?`) names the kind of
the value, so that it can be read back.
-/

namespace StateGraph.Value

/-! ## Plain form -/

mutual

/-- The plain document of a value. -/
def toJson : Value → Json
  | .null => .null
  | .bool b => .bool b
  | .int n => .int n.toInt
  | .float x => .ofBinary64 x
  | .text s => .string s
  | .list items => .array (toJsonItems items)
  | .labels set => .array (set.toList.map .string)

/-- The plain documents of the items of a list. -/
def toJsonItems : List Value → List Json
  | [] => []
  | v :: rest => toJson v :: toJsonItems rest

end

/-! ## Tagged form -/

mutual

/-- The tagged document of a value. -/
def toTagged : Value → Json
  | .null => .string "Null"
  | .bool b => .object [("Bool", .bool b)]
  | .int n => .object [("Int", .int n.toInt)]
  | .float x => .object [("Float", .ofBinary64 x)]
  | .text s => .object [("Text", .string s)]
  | .list items => .object [("List", .array (toTaggedItems items))]
  | .labels set => .object [("Labels", .array (set.toList.map .string))]

/-- The tagged documents of the items of a list. -/
def toTaggedItems : List Value → List Json
  | [] => []
  | v :: rest => toTagged v :: toTaggedItems rest

end

/-- The texts in an array of strings. -/
def texts? : List JsonTree → Option (List String)
  | [] => some []
  | t :: rest => do return (← t.text?) :: (← texts? rest)

mutual

/-- The value of a tagged document, read inside of at most `limit - 1` more
levels. -/
def ofTree? (limit : Nat) : JsonTree → Option Value
  | .string (some "Null") => some .null
  | .object [(some tag, content)] =>
    if limit < 2 then none else ofContent? (limit - 1) tag content
  | _ => none

/-- The value with a tag and a content. -/
def ofContent? (limit : Nat) (tag : String) : JsonTree → Option Value
  | .null => if tag = "Null" then some .null else none
  | .bool b => if tag = "Bool" then some (.bool b) else none
  | .number x =>
    if tag = "Int" then ((JsonTree.number x).int64?).map .int
    else if tag = "Float" then x.float?.map .float
    else none
  | .string s => if tag = "Text" then s.map .text else none
  | .array items =>
    if limit < 2 then none
    else if tag = "List" then (ofItems? (limit - 1) items).map .list
    else if tag = "Labels" then (texts? items).map fun l => .labels (.ofList l)
    else none
  | .object _ => none

/-- The values of the items of an array. -/
def ofItems? (limit : Nat) : List JsonTree → Option (List Value)
  | [] => some []
  | t :: rest => do return (← ofTree? limit t) :: (← ofItems? limit rest)

end

/-- Reads the tagged form of a value. -/
def ofTagged? (text : String) : Option Value := do
  ofTree? JsonTree.depthLimit (← JsonTree.read? text)

end StateGraph.Value
