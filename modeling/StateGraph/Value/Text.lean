import StateGraph.Decimal.Layout
import StateGraph.Text.Quoted
import StateGraph.Value

set_option autoImplicit false

/-!
# Values as text

`Value.display` is for reading: texts stand without quotes, lists in parentheses,
label sets in braces.  The class `Shown` is for messages: it names the kind of a
value and quotes its texts, and it covers the other types that states and actions
may have.
-/

namespace StateGraph

namespace Value

mutual

/-- The readable text of a value. -/
def display : Value → String
  | .null => "null"
  | .bool b => if b then "true" else "false"
  | .int n => toString n.toInt
  | .float x => x.text .readable
  | .text s => s
  | .list items => "(" ++ commaSeparated (displayItems items) ++ ")"
  | .labels set => "\x7b" ++ commaSeparated set.toList ++ "\x7d"

/-- The readable texts of the items of a list. -/
def displayItems : List Value → List String
  | [] => []
  | v :: rest => display v :: displayItems rest

end

end Value

/-! ## Text in messages -/

/-- Types whose elements can be shown in messages. -/
class Shown (α : Type) where
  /-- the text of an element in a message -/
  shown : α → String

export Shown (shown)

instance : Shown Bool := ⟨fun b => if b then "true" else "false"⟩

instance : Shown UInt32 := ⟨fun n => toString n.toNat⟩

instance : Shown Int64 := ⟨fun n => toString n.toInt⟩

instance : Shown Binary64 := ⟨Binary64.text .quoted⟩

instance : Shown String := ⟨Quoted.string⟩

instance : Shown Char := ⟨Quoted.char⟩

instance : Shown LabelSet :=
  ⟨fun set => "\x7b" ++ commaSeparated (set.toList.map Quoted.string) ++ "\x7d"⟩

instance {α : Type} [Shown α] : Shown (List α) :=
  ⟨fun items => "[" ++ commaSeparated (items.map shown) ++ "]"⟩

instance {α : Type} [Shown α] : Shown (Option α) :=
  ⟨fun | none => "None" | some a => "Some(" ++ shown a ++ ")"⟩

instance {α β : Type} [Shown α] [Shown β] : Shown (α × β) :=
  ⟨fun (a, b) => "(" ++ commaSeparated [shown a, shown b] ++ ")"⟩

/-- A triple is shown in one pair of parentheses. -/
instance {α β γ : Type} [Shown α] [Shown β] [Shown γ] : Shown (α × β × γ) :=
  ⟨fun (a, b, c) => "(" ++ commaSeparated [shown a, shown b, shown c] ++ ")"⟩

namespace Value

mutual

/-- The text of a value in a message. -/
def describe : Value → String
  | .null => "Null"
  | .bool b => "Bool(" ++ shown b ++ ")"
  | .int n => "Int(" ++ shown n ++ ")"
  | .float x => "Float(" ++ shown x ++ ")"
  | .text s => "Text(" ++ shown s ++ ")"
  | .list items => "List([" ++ commaSeparated (describeItems items) ++ "])"
  | .labels set => "Labels(" ++ shown set ++ ")"

/-- The texts of the items of a list in a message. -/
def describeItems : List Value → List String
  | [] => []
  | v :: rest => describe v :: describeItems rest

end

end Value

instance : Shown Value := ⟨Value.describe⟩

end StateGraph
