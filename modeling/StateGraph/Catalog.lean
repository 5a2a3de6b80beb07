import StateGraph.Property

set_option autoImplicit false

/-!
# Catalogs of properties and their handles

A catalog holds the properties of one kind of element, each under its name, in
the order of their declaration.  A handle is the position of a property together
with the identity of the catalog that issued it.  Copies of a catalog share its
identity; a catalog that is made anew gets an identity of its own, so that no
other catalog accepts the handles of the old one.

Identities are handed out by a `Supply`, which never gives the same one twice.
-/

namespace StateGraph

/-- The identity of a catalog.  It is kept in a word of 64 bits, which a program does not
use up. -/
structure Identity where
  serial : Nat
  deriving DecidableEq, Repr, Inhabited

/-- A source of identities that have not been given out yet. -/
structure Supply where
  next : Nat
  deriving DecidableEq, Repr, Inhabited

/-- Gives out one identity. -/
def Supply.take (s : Supply) : Identity × Supply := (⟨s.next⟩, ⟨s.next + 1⟩)

/-- Access to one property of a catalog of elements `ε`.  The position is kept in a word of
32 bits; it fits as long as the catalog has no more than `2 ^ 32` names. -/
structure Handle (ε : Type) where
  owner : Identity
  index : Nat
  deriving Repr, Inhabited

instance {ε : Type} : DecidableEq (Handle ε) := fun a b =>
  if h : a.owner = b.owner ∧ a.index = b.index then .isTrue (by cases a; cases b; simp_all)
  else .isFalse fun e => h (e ▸ ⟨rfl, rfl⟩)

/-- The declared properties of one kind of element. -/
structure Catalog (ε : Type) where
  owner : Identity
  properties : OrderedMap String (Property ε)

namespace Catalog

variable {ε : Type}

/-- A catalog without properties. -/
def empty (owner : Identity) : Catalog ε := ⟨owner, .empty⟩

/-- The handle of the property at a position. -/
def handleAt (c : Catalog ε) (index : Nat) : Handle ε := ⟨c.owner, index⟩

/-- The names of the properties, in order of declaration. -/
def names (c : Catalog ε) : List String := c.properties.keys

/-- The properties, in order of declaration. -/
def toList (c : Catalog ε) : List (Property ε) := c.properties.values

/-- Number of properties. -/
def size (c : Catalog ε) : Nat := c.properties.size

/-- Whether no property is declared. -/
def isEmpty (c : Catalog ε) : Bool := c.properties.isEmpty

/-- Whether a name is declared. -/
def contains (c : Catalog ε) (name : String) : Bool := c.properties.contains name

/-- The handle of the property with a name. -/
def handle? (c : Catalog ε) (name : String) : Option (Handle ε) :=
  (c.properties.indexOf? name).map c.handleAt

/-- Files a property under its name: a new one goes to the end, a property of the
same name is replaced where it stands. -/
def file (c : Catalog ε) (p : Property ε) : Catalog ε × Handle ε :=
  ({ c with properties := c.properties.insert p.name p },
    c.handleAt ((c.properties.indexOf? p.name).getD c.size))

/-- Declares a property.  A name that is declared already keeps its property and
its default. -/
def declare (c : Catalog ε) (name : String) (default : Value) : Catalog ε × Handle ε :=
  match c.handle? name with
  | some h => (c, h)
  | none => c.file (.declare name default)

variable [Element ε]

/-- The property with a name. -/
def byName (c : Catalog ε) (name : String) : Except GraphError (Property ε) :=
  match c.properties.get? name with
  | some p => .ok p
  | none => .error (.unknownName (Element.kind ε) name)

/-- The property of a handle, with the name under which it is filed. -/
def entry (c : Catalog ε) (h : Handle ε) : Except GraphError (String × Property ε) :=
  if h.owner = c.owner then
    match c.properties.entryAt? h.index with
    | some e => .ok e
    | none => .error (.unknownHandle (Element.kind ε) h.index)
  else .error (.unknownHandle (Element.kind ε) h.index)

/-- The property of a handle. -/
def byHandle (c : Catalog ε) (h : Handle ε) : Except GraphError (Property ε) :=
  (c.entry h).map Prod.snd

/-- Puts a changed property in the place of the one filed under a name. -/
def replace (c : Catalog ε) (name : String) (p : Property ε) : Catalog ε :=
  { c with properties := c.properties.insert name p }

variable [DecidableEq ε]

/-- Reads a property through its handle. -/
def read (c : Catalog ε) (exists? : ε → Bool) (h : Handle ε) (e : ε) : Except GraphError Value := do
  (← c.byHandle h).read exists? e

/-- Reads a property by its name. -/
def readByName (c : Catalog ε) (exists? : ε → Bool) (name : String) (e : ε) :
    Except GraphError Value := do
  (← c.byName name).read exists? e

/-- Writes a property through its handle; returns the explicit value that was
there. -/
def write (c : Catalog ε) (exists? : ε → Bool) (h : Handle ε) (e : ε) (v : Value) :
    Except GraphError (Catalog ε × Option Value) := do
  let (name, p) ← c.entry h
  let (p, previous) ← p.write exists? e v
  return (c.replace name p, previous)

/-- Writes a property by its name; returns the explicit value that was there. -/
def writeByName (c : Catalog ε) (exists? : ε → Bool) (name : String) (e : ε) (v : Value) :
    Except GraphError (Catalog ε × Option Value) := do
  let p ← c.byName name
  let (p, previous) ← p.write exists? e v
  return (c.replace name p, previous)

omit [Element ε] in
/-- Writes a value on an element that was just created; a name that is not
declared is passed over. -/
def put (c : Catalog ε) (name : String) (e : ε) (v : Value) : Catalog ε :=
  match c.properties.get? name with
  | some p => c.replace name (p.put e v)
  | none => c

omit [Element ε] in
/-- Writes several values on an element that was just created, one after another. -/
def putMany (c : Catalog ε) (e : ε) (values : List (String × Value)) : Catalog ε :=
  values.foldl (fun c (name, v) => c.put name e v) c

end Catalog

end StateGraph
