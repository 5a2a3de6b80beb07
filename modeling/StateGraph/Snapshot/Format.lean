import StateGraph.Snapshot.Error

set_option autoImplicit false

/-!
# Byte formats

A format writes elements of a type as bytes and reads an element from the front
of a byte sequence, handing back the bytes that follow.  The formats of snapshots
are put together from those of words, texts and lists; words have a fixed width
with the least significant byte first, and texts and lists are preceded by their
length in 64 bits.

A reader stops at the first fault.  That it reads what was written, whatever
bytes follow, is `Format.Faithful`.
-/

namespace StateGraph

/-- Reads an element from the front of a byte sequence. -/
abbrev Reader (α : Type) : Type := Bytes → Except PayloadFault (α × Bytes)

/-- A way to write elements of a type as bytes and to read them back. -/
structure Format (α : Type) where
  write : α → Bytes
  read : Reader α

namespace Format

/-- An element is read back from what was written for it, and nothing more is
consumed. -/
def Faithful {α : Type} (f : Format α) (a : α) : Prop :=
  ∀ rest : Bytes, f.read (f.write a ++ rest) = .ok (a, rest)

/-! ## Words -/

/-- The bytes of a number, least significant first. -/
def numberBytes : Nat → Nat → Bytes
  | 0, _ => []
  | width + 1, n => (n % 256).toUInt8 :: numberBytes width (n / 256)

/-- The number that bytes stand for, least significant first. -/
def numberOf : Bytes → Nat
  | [] => 0
  | b :: bs => b.toNat + 256 * numberOf bs

/-- Splits off a number of bytes.  Only these bytes are counted, not all that
follow. -/
def takeBytes (n : Nat) : Reader Bytes := fun bs =>
  let front := bs.take n
  if front.length = n then .ok (front, bs.drop n) else .error .ended

/-- Reads a number of the given width. -/
def readNumber (width : Nat) : Reader Nat := fun bs =>
  match takeBytes width bs with
  | .error e => .error e
  | .ok (b, rest) => .ok (numberOf b, rest)

/-- A 16-bit word. -/
def word16 : Format UInt16 where
  write w := numberBytes 2 w.toNat
  read bs := match readNumber 2 bs with
    | .error e => .error e
    | .ok (n, rest) => .ok (n.toUInt16, rest)

/-- A 32-bit word. -/
def word32 : Format UInt32 where
  write w := numberBytes 4 w.toNat
  read bs := match readNumber 4 bs with
    | .error e => .error e
    | .ok (n, rest) => .ok (n.toUInt32, rest)

/-- A 64-bit word. -/
def word64 : Format UInt64 where
  write w := numberBytes 8 w.toNat
  read bs := match readNumber 8 bs with
    | .error e => .error e
    | .ok (n, rest) => .ok (n.toUInt64, rest)

/-- A truth value: one byte, 0 or 1. -/
def boolean : Format Bool where
  write b := [if b then 1 else 0]
  read
    | [] => .error .ended
    | b :: rest =>
      if b = 0 then .ok (false, rest)
      else if b = 1 then .ok (true, rest)
      else .error (.notBoolean b)

/-! ## Combinations -/

/-- The format of a type whose elements correspond to those of another. -/
def map {α β : Type} (f : Format α) (make : α → β) (back : β → α) : Format β where
  write b := f.write (back b)
  read bs := match f.read bs with
    | .error e => .error e
    | .ok (a, rest) => .ok (make a, rest)

/-- Two elements, one after the other. -/
def pair {α β : Type} (f : Format α) (g : Format β) : Format (α × β) where
  write p := f.write p.1 ++ g.write p.2
  read bs := match f.read bs with
    | .error e => .error e
    | .ok (a, bs) =>
      match g.read bs with
      | .error e => .error e
      | .ok (b, rest) => .ok ((a, b), rest)

/-- Reads a number of elements. -/
def readMany {α : Type} (r : Reader α) : Nat → Reader (List α)
  | 0 => fun bs => .ok ([], bs)
  | n + 1 => fun bs =>
    match r bs with
    | .error e => .error e
    | .ok (a, bs) =>
      match readMany r n bs with
      | .error e => .error e
      | .ok (as, rest) => .ok (a :: as, rest)

/-- Reads a list: its length, then its elements. -/
def readList {α : Type} (r : Reader α) : Reader (List α) := fun bs =>
  match readNumber 8 bs with
  | .error e => .error e
  | .ok (n, bs) => readMany r n bs

/-- A list: its length, then its elements. -/
def list {α : Type} (f : Format α) : Format (List α) where
  write as := numberBytes 8 as.length ++ as.flatMap f.write
  read := readList f.read

/-! ## Texts -/

/-- A text: the number of its bytes, then its bytes. -/
def text : Format String where
  write s := numberBytes 8 (utf8 s).length ++ utf8 s
  read bs := match readNumber 8 bs with
    | .error e => .error e
    | .ok (n, bs) =>
      match takeBytes n bs with
      | .error e => .error e
      | .ok (b, rest) =>
        match ofUtf8? b with
        | some s => .ok (s, rest)
        | none => .error (.notUtf8 ((Utf8.fault? b).getD ⟨0, none⟩))

end Format

end StateGraph
