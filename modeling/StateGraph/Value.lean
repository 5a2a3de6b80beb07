import StateGraph.Binary64
import StateGraph.LabelSet

set_option autoImplicit false

/-!
# Attribute values

Nodes, edges and graphs carry values of one dynamic type.  Values serve as keys
(of state indexes and of groups of edges), so their equality is decided here:
floating-point numbers are equal when their bits are, and values of different
kinds are never equal.
-/

namespace StateGraph

/-- A value of an attribute. -/
inductive Value where
  | null
  | bool (b : Bool)
  | int (n : Int64)
  | float (x : Binary64)
  | text (s : String)
  | list (items : List Value)
  | labels (set : LabelSet)
  deriving Inhabited

namespace Value

/-! ## Equality -/

mutual

/-- Whether two values are the same. -/
def beq : Value → Value → Bool
  | .null, .null => true
  | .bool a, .bool b => a == b
  | .int a, .int b => decide (a = b)
  | .float a, .float b => decide (a = b)
  | .text a, .text b => decide (a = b)
  | .list a, .list b => beqList a b
  | .labels a, .labels b => decide (a = b)
  | _, _ => false

/-- Whether two lists of values are the same. -/
def beqList : List Value → List Value → Bool
  | [], [] => true
  | a :: as, b :: bs => beq a b && beqList as bs
  | _, _ => false

end

mutual

theorem beq_iff_eq : (a b : Value) → (beq a b = true ↔ a = b)
  | .list a, b => by cases b <;> simp [beq, beqList_iff_eq a]
  | .null, b => by cases b <;> simp [beq]
  | .bool a, b => by cases b <;> simp [beq]
  | .int a, b => by cases b <;> simp [beq]
  | .float a, b => by cases b <;> simp [beq]
  | .text a, b => by cases b <;> simp [beq]
  | .labels a, b => by cases b <;> simp [beq]

theorem beqList_iff_eq : (as bs : List Value) → (beqList as bs = true ↔ as = bs)
  | [], bs => by cases bs <;> simp [beqList]
  | a :: as, bs => by cases bs <;> simp [beqList, beq_iff_eq a, beqList_iff_eq as]

end

instance : DecidableEq Value := fun a b => decidable_of_iff _ (beq_iff_eq a b)

/-! ## Views -/

/-- Whether the value is null. -/
def isNull : Value → Bool
  | .null => true
  | _ => false

/-- The truth value. -/
def asBool? : Value → Option Bool
  | .bool b => some b
  | _ => none

/-- The integer. -/
def asInt? : Value → Option Int64
  | .int n => some n
  | _ => none

/-- The number, an integer counting as the nearest floating-point number. -/
def asFloat? : Value → Option Binary64
  | .float x => some x
  | .int n => some (.ofInt64 n)
  | _ => none

/-- The text. -/
def asText? : Value → Option String
  | .text s => some s
  | _ => none

/-- The items of a list. -/
def asList? : Value → Option (List Value)
  | .list items => some items
  | _ => none

/-- The label set. -/
def asLabels? : Value → Option LabelSet
  | .labels set => some set
  | _ => none

end Value

end StateGraph
