import StateGraph.GraphError
import StateGraph.Value

set_option autoImplicit false

/-!
# Values of other types

Numbers, texts, lists and tuples have one form as attribute values.  States and
actions are stored through these conversions.
-/

namespace StateGraph

/-- Types whose elements can be stored as attribute values. -/
class ToValue (α : Type) where
  /-- the attribute value of an element -/
  toValue : α → Value

export ToValue (toValue)

instance : ToValue Value := ⟨id⟩

instance : ToValue Bool := ⟨.bool⟩

instance : ToValue Int32 := ⟨fun n => .int n.toInt64⟩

instance : ToValue Int64 := ⟨.int⟩

instance : ToValue UInt32 := ⟨fun n => .int n.toUInt64.toInt64⟩

instance : ToValue Binary64 := ⟨.float⟩

instance : ToValue String := ⟨.text⟩

instance : ToValue Char := ⟨fun c => .text c.toString⟩

instance : ToValue LabelSet := ⟨.labels⟩

instance {α : Type} [ToValue α] : ToValue (List α) := ⟨fun items => .list (items.map toValue)⟩

/-- What is absent is stored as null. -/
instance {α : Type} [ToValue α] : ToValue (Option α) := ⟨fun a => (a.map toValue).getD .null⟩

instance {α β : Type} [ToValue α] [ToValue β] : ToValue (α × β) :=
  ⟨fun (a, b) => .list [toValue a, toValue b]⟩

/-- A triple is stored as one list of three. -/
instance {α β γ : Type} [ToValue α] [ToValue β] [ToValue γ] : ToValue (α × β × γ) :=
  ⟨fun (a, b, c) => .list [toValue a, toValue b, toValue c]⟩

/-- The value of a size, if it is within the range of integer values. -/
def Value.ofSize (size : UInt64) : Except GraphError Value :=
  if size < 0x8000000000000000 then .ok (.int size.toInt64) else .error (.sizeOutOfRange size)

end StateGraph
