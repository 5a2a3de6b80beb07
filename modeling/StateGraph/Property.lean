import StateGraph.GraphError
import StateGraph.OrderedMap
import StateGraph.Value

set_option autoImplicit false

/-!
# Properties

A property gives every element of one kind a value: the explicit value written
for the element, or else the default.  Which elements exist is not known to the
property and is asked of its owner at each read and write.
-/

namespace StateGraph

/-- Named values in a fixed order; a repeated name keeps its first place and its
last value. -/
abbrev Attributes : Type := OrderedMap String Value

/-- The identifiers that can carry properties. -/
class Element (ε : Type) where
  /-- the kind of the identified elements -/
  kind : ElementKind
  /-- the error of asking a property of an element that does not exist -/
  membershipError : String → ε → GraphError

instance : Element NodeId := ⟨.node, .nodeMembership⟩

instance : Element EdgeId := ⟨.edge, .edgeMembership⟩

/-- A property: its name, the value of elements without an explicit one, and the
explicit values in the order in which elements first got one. -/
structure Property (ε : Type) where
  name : String
  default : Value
  values : OrderedMap ε Value

namespace Property

variable {ε : Type}

instance [DecidableEq ε] : DecidableEq (Property ε) := fun p q =>
  if h : p.name = q.name ∧ p.default = q.default ∧ p.values = q.values then
    .isTrue (by cases p; cases q; simp_all)
  else .isFalse fun e => h (e ▸ ⟨rfl, rfl, rfl⟩)

/-- A property without explicit values. -/
def declare (name : String) (default : Value) : Property ε := ⟨name, default, .empty⟩

/-- The elements with an explicit value, and the values. -/
def explicit (p : Property ε) : List (ε × Value) := p.values.toList

variable [DecidableEq ε]

/-- A property with the given explicit values; an element that is repeated keeps
its first place and its last value. -/
def ofValues (name : String) (default : Value) (values : List (ε × Value)) : Property ε :=
  ⟨name, default, .ofList values⟩

/-- The explicit value of an element. -/
def explicit? (p : Property ε) (e : ε) : Option Value := p.values.get? e

/-- The explicit value of an element or the default, whether or not it exists. -/
def valueOf (p : Property ε) (e : ε) : Value := (p.explicit? e).getD p.default

/-- Writes an explicit value, whether or not the element exists. -/
def put (p : Property ε) (e : ε) (v : Value) : Property ε :=
  { p with values := p.values.insert e v }

variable [Element ε]

/-- Reads the value of an element: an explicit value is there in any case, the
default only for an element that exists. -/
def read (p : Property ε) (exists? : ε → Bool) (e : ε) : Except GraphError Value :=
  match p.explicit? e with
  | some v => .ok v
  | none => if exists? e then .ok p.default else .error (Element.membershipError p.name e)

/-- Writes the value of an element that exists; returns the explicit value that
was there. -/
def write (p : Property ε) (exists? : ε → Bool) (e : ε) (v : Value) :
    Except GraphError (Property ε × Option Value) :=
  if exists? e then .ok (p.put e v, p.explicit? e)
  else .error (Element.membershipError p.name e)

end Property

end StateGraph
