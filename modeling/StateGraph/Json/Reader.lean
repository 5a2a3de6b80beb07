import StateGraph.Json
import StateGraph.Decimal.Numeral

set_option autoImplicit false

/-!
# Reading JSON texts

The reader is strict: the grammar of JSON, blanks around tokens, nothing after
the value.  Its result is a tree that decides nothing yet: numerals are kept as
written, members are kept in order with repetitions, and a string whose escapes
name half of a surrogate pair is kept as a string without text.  What such a
tree stands for is decided by the type that is read from it, so that a part
which is to be ignored is held to the grammar only.
-/

namespace StateGraph

/-- A JSON text, as read. -/
inductive JsonTree where
  | null
  | bool (b : Bool)
  | number (x : Numeral)
  /-- `none` if the escapes do not denote a text -/
  | string (s : Option String)
  | array (items : List JsonTree)
  | object (members : List (Option String × JsonTree))
  deriving Repr, Inhabited

namespace JsonTree

/-! ## Blanks and words -/

/-- The blanks of JSON. -/
def isBlank (c : Char) : Bool := c = ' ' || c = '\n' || c = '\t' || c = '\r'

/-- Drops the blanks at the front. -/
def skipBlanks (cs : List Char) : List Char := cs.dropWhile isBlank

/-- What follows a word, if the text begins with it. -/
def expect : List Char → List Char → Option (List Char)
  | [], cs => some cs
  | _ :: _, [] => none
  | w :: ws, c :: cs => if w = c then expect ws cs else none

/-! ## Strings -/

/-- The value of a hexadecimal digit. -/
def hexDigit? (c : Char) : Option Nat :=
  if '0' ≤ c ∧ c ≤ '9' then some (c.toNat - 48)
  else if 'a' ≤ c ∧ c ≤ 'f' then some (c.toNat - 87)
  else if 'A' ≤ c ∧ c ≤ 'F' then some (c.toNat - 55)
  else none

/-- The number of four hexadecimal digits. -/
def hexQuad? (a b c d : Char) : Option Nat := do
  return (((← hexDigit? a) * 16 + (← hexDigit? b)) * 16 + (← hexDigit? c)) * 16 + (← hexDigit? d)

/-- The character behind a backslash that has a letter of its own. -/
def unletter? : Char → Option Char
  | '"' => some '"'
  | '\\' => some '\\'
  | '/' => some '/'
  | 'b' => some '\x08'
  | 'f' => some '\x0c'
  | 'n' => some '\n'
  | 'r' => some '\r'
  | 't' => some '\t'
  | _ => none

/-- The inside of a string up to its closing quote, as a list of 16-bit units and
characters: `.inl` is the unit of a numeric escape, `.inr` a character. -/
def readUnits : List Char → Option (List (Nat ⊕ Char) × List Char)
  | [] => none
  | '"' :: cs => some ([], cs)
  | '\\' :: 'u' :: a :: b :: c :: d :: cs => do
    let n ← hexQuad? a b c d
    let (us, rest) ← readUnits cs
    return (.inl n :: us, rest)
  | '\\' :: l :: cs => do
    let c ← unletter? l
    let (us, rest) ← readUnits cs
    return (.inr c :: us, rest)
  | c :: cs => do
    if c = '\\' ∨ c.toNat < 0x20 then none
    let (us, rest) ← readUnits cs
    return (.inr c :: us, rest)

/-- The characters that units denote; a surrogate must be a high one followed by
a low one, both written as escapes. -/
def decodeUnits : List (Nat ⊕ Char) → Option (List Char)
  | [] => some []
  | .inr c :: us => (decodeUnits us).map (c :: ·)
  | .inl n :: us =>
    if n < 0xD800 ∨ 0xDFFF < n then (decodeUnits us).map (Char.ofNat n :: ·)
    else
      match us with
      | .inl m :: us' =>
        if n < 0xDC00 ∧ 0xDC00 ≤ m ∧ m ≤ 0xDFFF then
          (decodeUnits us').map (Char.ofNat (0x10000 + (n - 0xD800) * 0x400 + (m - 0xDC00)) :: ·)
        else none
      | _ => none

/-- A string whose opening quote has been read. -/
def readString (cs : List Char) : Option (Option String × List Char) := do
  let (us, rest) ← readUnits cs
  return ((decodeUnits us).map String.ofList, rest)

/-! ## Values -/

mutual

/-- One value at the front of a text, blanks before it included. -/
def readValue : Nat → List Char → Option (JsonTree × List Char)
  | 0, _ => none
  | fuel + 1, cs =>
    match skipBlanks cs with
    | '"' :: rest => do
      let (s, rest) ← readString rest
      return (.string s, rest)
    | '[' :: rest =>
      match skipBlanks rest with
      | ']' :: rest => some (.array [], rest)
      | rest => do
        let (items, rest) ← readItems fuel rest
        return (.array items, rest)
    | '\x7b' :: rest =>
      match skipBlanks rest with
      | '\x7d' :: rest => some (.object [], rest)
      | rest => do
        let (members, rest) ← readMembers fuel rest
        return (.object members, rest)
    | 'n' :: rest => do return (.null, ← expect ['u', 'l', 'l'] rest)
    | 't' :: rest => do return (.bool true, ← expect ['r', 'u', 'e'] rest)
    | 'f' :: rest => do return (.bool false, ← expect ['a', 'l', 's', 'e'] rest)
    | rest => do
      let (x, rest) ← Numeral.read rest
      return (.number x, rest)

/-- The items of an array up to its closing bracket. -/
def readItems : Nat → List Char → Option (List JsonTree × List Char)
  | 0, _ => none
  | fuel + 1, cs => do
    let (item, rest) ← readValue fuel cs
    match skipBlanks rest with
    | ',' :: rest => do
      let (items, rest) ← readItems fuel rest
      return (item :: items, rest)
    | ']' :: rest => return ([item], rest)
    | _ => none

/-- The members of an object up to its closing brace. -/
def readMembers : Nat → List Char → Option (List (Option String × JsonTree) × List Char)
  | 0, _ => none
  | fuel + 1, cs =>
    match skipBlanks cs with
    | '"' :: rest => do
      let (name, rest) ← readString rest
      let rest ← expect [':'] (skipBlanks rest)
      let (value, rest) ← readValue fuel rest
      match skipBlanks rest with
      | ',' :: rest => do
        let (members, rest) ← readMembers fuel rest
        return ((name, value) :: members, rest)
      | '\x7d' :: rest => return ([(name, value)], rest)
      | _ => none
    | _ => none

end

/-- Reads a text that holds one value and nothing else.  Every level of nesting
and every item consumes a character, so the length of the text bounds the work. -/
def read? (text : String) : Option JsonTree := do
  let cs := text.toList
  let (tree, rest) ← readValue (2 * cs.length + 2) cs
  if (skipBlanks rest).isEmpty then return tree else none

/-! ## What a tree stands for -/

/-- Number of levels of arrays and objects a typed reader may be inside of,
counting the one it is about to enter. -/
def depthLimit : Nat := 128

/-- An integer within the given bounds. -/
def integer? (low high : Int) : JsonTree → Option Int
  | .number x => do
    let n ← x.integer?
    if low ≤ n ∧ n ≤ high then return n else none
  | _ => none

/-- A 32-bit unsigned integer. -/
def uint32? (t : JsonTree) : Option UInt32 :=
  (t.integer? 0 4294967295).map fun n => n.toNat.toUInt32

/-- A 64-bit signed integer. -/
def int64? (t : JsonTree) : Option Int64 :=
  (t.integer? (-9223372036854775808) 9223372036854775807).map Int64.ofInt

/-- A floating-point number. -/
def float? : JsonTree → Option Binary64
  | .number x => x.float?
  | _ => none

/-- A text. -/
def text? : JsonTree → Option String
  | .string s => s
  | _ => none

/-- The members of an object whose names are all texts. -/
def members? : JsonTree → Option (List (String × JsonTree))
  | .object members => members.mapM fun (name, t) => name.map (·, t)
  | _ => none

/-- The one member with a name; `none` if it is repeated, `some none` if it is
missing. -/
def field? (name : String) (members : List (String × JsonTree)) : Option (Option JsonTree) :=
  match members.filter (·.1 = name) with
  | [] => some none
  | [(_, t)] => some (some t)
  | _ => none

end JsonTree

end StateGraph
