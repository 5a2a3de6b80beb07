import StateGraph.Decimal.Layout

set_option autoImplicit false

/-!
# JSON documents and their text

Values, identifiers and reports are written as JSON, on one line (`compact`) or
indented by two blanks a level (`pretty`).  A document keeps integers and
fractional numbers apart, since they are written differently, and has no NaN and
no infinity: `Json.ofBinary64` turns those into `null`.
-/

namespace StateGraph

/-- A JSON document; the members of an object stand in the order in which they
are written. -/
inductive Json where
  | null
  | bool (b : Bool)
  | int (n : Int)
  | float (x : Binary64)
  | string (s : String)
  | array (items : List Json)
  | object (members : List (String × Json))
  deriving Repr, Inhabited

namespace Json

/-- The document of a number; JSON has no NaN and no infinity. -/
def ofBinary64 (x : Binary64) : Json := if x.isFinite then .float x else .null

/-! ## Strings -/

/-- Two hexadecimal digits of a number below 256. -/
def hexPair (n : Nat) : List Char := [Nat.digitChar (n / 16), Nat.digitChar (n % 16)]

/-- One character inside a JSON string: quote, backslash and control characters
are escaped, everything else stands for itself. -/
def character (c : Char) : List Char :=
  if c = '"' then ['\\', '"']
  else if c = '\\' then ['\\', '\\']
  else if c = '\x08' then ['\\', 'b']
  else if c = '\t' then ['\\', 't']
  else if c = '\n' then ['\\', 'n']
  else if c = '\x0c' then ['\\', 'f']
  else if c = '\r' then ['\\', 'r']
  else if c.toNat < 0x20 then '\\' :: 'u' :: '0' :: '0' :: hexPair c.toNat
  else [c]

/-- A JSON string. -/
def quote (s : String) : String :=
  String.ofList ('"' :: s.toList.flatMap character ++ ['"'])

/-! ## Compact form -/

mutual

/-- The text of a document without any white space. -/
def compact : Json → String
  | .null => "null"
  | .bool b => if b then "true" else "false"
  | .int n => toString n
  | .float x => x.text .json
  | .string s => quote s
  | .array items => "[" ++ ",".intercalate (compactItems items) ++ "]"
  | .object members => "\x7b" ++ ",".intercalate (compactMembers members) ++ "\x7d"

/-- The texts of the items of an array. -/
def compactItems : List Json → List String
  | [] => []
  | j :: rest => compact j :: compactItems rest

/-- The texts of the members of an object. -/
def compactMembers : List (String × Json) → List String
  | [] => []
  | (name, j) :: rest => (quote name ++ ":" ++ compact j) :: compactMembers rest

end

/-! ## Indented form -/

/-- A line break followed by the blanks of a level. -/
def lineBreak (level : Nat) : String := "\n" ++ String.ofList (List.replicate (2 * level) ' ')

/-- Brackets around texts on lines of their own; nothing between the brackets if
there are none. -/
def enclose (level : Nat) (left right : String) (items : List String) : String :=
  if items.isEmpty then left ++ right
  else left ++ lineBreak (level + 1) ++ ("," ++ lineBreak (level + 1)).intercalate items ++
    lineBreak level ++ right

mutual

/-- The text of a document at a level of indentation. -/
def prettyAt (level : Nat) : Json → String
  | .null => "null"
  | .bool b => if b then "true" else "false"
  | .int n => toString n
  | .float x => x.text .json
  | .string s => quote s
  | .array items => enclose level "[" "]" (prettyItems (level + 1) items)
  | .object members => enclose level "\x7b" "\x7d" (prettyMembers (level + 1) members)

/-- The texts of the items of an array, at their level. -/
def prettyItems (level : Nat) : List Json → List String
  | [] => []
  | j :: rest => prettyAt level j :: prettyItems level rest

/-- The texts of the members of an object, at their level. -/
def prettyMembers (level : Nat) : List (String × Json) → List String
  | [] => []
  | (name, j) :: rest => (quote name ++ ": " ++ prettyAt level j) :: prettyMembers level rest

end

/-- The indented text of a document. -/
def pretty (j : Json) : String := prettyAt 0 j

/-! ## Objects with sorted members -/

/-- Inserts a member before the first one with a later name. -/
def insertMember (m : String × Json) : List (String × Json) → List (String × Json)
  | [] => [m]
  | e :: rest => if m.1 < e.1 then m :: e :: rest else e :: insertMember m rest

/-- An object whose members are written in the order of their names, which are
compared by code points. -/
def sortedObject (members : List (String × Json)) : Json :=
  .object (members.foldr insertMember [])

end Json

end StateGraph
