import StateGraph.Snapshot
import StateGraph.Snapshot.Format

set_option autoImplicit false

/-!
# The payload of a snapshot file

The parts of a snapshot stand one after another in the order of the fields of
`Snapshot`.  A value is preceded by the number of its kind; labels that are not
in order are put in order when they are read.  Bytes after the end of a snapshot
are ignored.

Values nest.  A nested value takes at least twelve bytes more than what it
contains, so the number of bytes bounds the depth of nesting, and the reader
recurses on it.
-/

namespace StateGraph.Payload

/-- A node: its number. -/
def node : Format NodeId := Format.word32.map NodeId.mk NodeId.index

/-- An edge: source, target and key. -/
def edge : Format EdgeId :=
  (node.pair (node.pair Format.word32)).map (fun (u, v, k) => ⟨u, v, k⟩)
    fun e => (e.source, e.target, e.key)

/-- A number: its bits. -/
def binary64 : Format Binary64 := Format.word64.map Binary64.mk Binary64.bits

/-- An integer in two's complement. -/
def integer : Format Int64 := Format.word64.map UInt64.toInt64 Int64.toUInt64

/-- A label set: the list of its labels. -/
def labels : Format LabelSet := Format.text.list.map LabelSet.ofList LabelSet.toList

mutual

/-- The bytes of a value: the number of its kind and its content. -/
def writeValue : Value → Bytes
  | .null => Format.word32.write 0
  | .bool b => Format.word32.write 1 ++ Format.boolean.write b
  | .int n => Format.word32.write 2 ++ integer.write n
  | .float x => Format.word32.write 3 ++ binary64.write x
  | .text s => Format.word32.write 4 ++ Format.text.write s
  | .list items =>
    Format.word32.write 5 ++ (Format.numberBytes 8 items.length ++ writeValues items)
  | .labels set => Format.word32.write 6 ++ labels.write set

/-- The bytes of several values, one after another. -/
def writeValues : List Value → Bytes
  | [] => []
  | v :: rest => writeValue v ++ writeValues rest

end

/-- Reads the content of a value and makes the value of it. -/
def readAs {α : Type} (f : Reader α) (make : α → Value) : Reader Value := fun bs =>
  match f bs with
  | .error e => .error e
  | .ok (a, rest) => .ok (make a, rest)

/-- Reads a value, given a reader of the values inside it. -/
def readWith (inner : Reader Value) : Reader Value := fun bs =>
  match Format.word32.read bs with
  | .error e => .error e
  | .ok (tag, bs) =>
    if tag = 0 then .ok (.null, bs)
    else if tag = 1 then readAs Format.boolean.read .bool bs
    else if tag = 2 then readAs integer.read .int bs
    else if tag = 3 then readAs binary64.read .float bs
    else if tag = 4 then readAs Format.text.read .text bs
    else if tag = 5 then readAs (Format.readList inner) .list bs
    else if tag = 6 then readAs labels.read .labels bs
    else .error (.unknownTag tag)

/-- Reads a value that nests less deep than the given bound. -/
def readWithin : Nat → Reader Value
  | 0 => fun _ => .error .ended
  | depth + 1 => readWith (readWithin depth)

/-- A value.  The bound is not looked at unless values are nested. -/
def value : Format Value where
  write := writeValue
  read := readWith fun bs => readWithin (bs.length + 1) bs

/-- A property: name, default, explicit values. -/
def property {ε : Type} (element : Format ε) : Format (StoredProperty ε) :=
  (Format.text.pair (value.pair (element.pair value).list)).map
    (fun (name, default, values) => ⟨name, default, values⟩)
    fun p => (p.name, p.default, p.values)

/-- The targets of each source with their highest keys. -/
def groups : Format (List (NodeId × List (NodeId × UInt32))) :=
  (node.pair (node.pair Format.word32).list).list

/-- A snapshot. -/
def snapshot : Format Snapshot :=
  (Format.text.pair (Format.word32.pair (Format.word64.pair (groups.pair
    ((property node).list.pair ((property edge).list.pair (Format.text.pair value).list)))))).map
    (fun (kind, nodeCount, edgeCount, groups, nodeProperties, edgeProperties, attributes) =>
      ⟨kind, nodeCount, edgeCount, groups, nodeProperties, edgeProperties, attributes⟩)
    fun s => (s.kind, s.nodeCount, s.edgeCount, s.groups, s.nodeProperties, s.edgeProperties,
      s.attributes)

/-- The payload of a snapshot. -/
def write (s : Snapshot) : Bytes := snapshot.write s

/-- The snapshot at the front of a payload. -/
def read (payload : Bytes) : Except PayloadFault Snapshot :=
  match snapshot.read payload with
  | .error e => .error e
  | .ok (s, _) => .ok s

end StateGraph.Payload
