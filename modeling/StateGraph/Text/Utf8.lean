set_option autoImplicit false

/-!
# Bytes that are not text

A stored string or a file name may hold bytes that are not UTF-8.  Two answers
are needed then: where the text breaks off and how many bytes belong to the
fault (`Utf8.fault?`), and a readable text with one replacement character for
each fault (`Utf8.readable`).

Both walk the bytes once.  A lead byte announces the ranges in which the bytes
after it must lie; a fault is a byte that leads nothing, a byte outside the
range announced for it, or an end of input while bytes are still announced.
-/

namespace StateGraph

/-- A sequence of bytes. -/
abbrev Bytes : Type := List UInt8

/-- The UTF-8 form of a text. -/
def utf8 (s : String) : Bytes := s.toUTF8.data.toList

/-- The text that bytes encode, if they are UTF-8. -/
def ofUtf8? (bs : Bytes) : Option String := String.fromUTF8? ⟨bs.toArray⟩

namespace Utf8

/-- Where a byte sequence stops being UTF-8. -/
structure Fault where
  /-- length of the longest valid beginning that ends between characters -/
  validUpTo : Nat
  /-- number of bytes of the fault; `none` if the input ends inside a character -/
  width : Option Nat
  deriving DecidableEq, Repr

/-- A closed range of byte values. -/
abbrev Range : Type := UInt8 × UInt8

/-- The range of a continuation byte. -/
def tail : Range := (0x80, 0xBF)

/-- The ranges announced by a lead byte, or `none` if the byte leads nothing.
The narrowed ranges exclude overlong forms, surrogates and numbers above
`10FFFF`. -/
def announced (b : UInt8) : Option (List Range) :=
  if b < 0x80 then some []
  else if b < 0xC2 then none
  else if b < 0xE0 then some [tail]
  else if b = 0xE0 then some [(0xA0, 0xBF), tail]
  else if b = 0xED then some [(0x80, 0x9F), tail]
  else if b < 0xF0 then some [tail, tail]
  else if b = 0xF0 then some [(0x90, 0xBF), tail, tail]
  else if b < 0xF4 then some [tail, tail, tail]
  else if b = 0xF4 then some [(0x80, 0x8F), tail, tail]
  else none

/-- Walks the bytes at position `i`, inside a character that began at `start` and
still owes bytes in the given ranges. -/
def walk : Nat → Nat → List Range → Bytes → Option Fault
  | _, _, [], [] => none
  | _, start, _ :: _, [] => some ⟨start, none⟩
  | i, _, [], b :: bs =>
    match announced b with
    | none => some ⟨i, some 1⟩
    | some owed => walk (i + 1) i owed bs
  | i, start, r :: owed, b :: bs =>
    if r.1 ≤ b ∧ b ≤ r.2 then walk (i + 1) start owed bs else some ⟨start, some (i - start)⟩

/-- The first fault of a byte sequence. -/
def fault? (bs : Bytes) : Option Fault := walk 0 0 [] bs

/-- The character that stands for a fault. -/
def replacement : Char := '\uFFFD'

/-- What a byte at the beginning of a character gives: a character at once, or
the ranges it announces together with its own bits. -/
def lead (b : UInt8) : List Char × List Range × Nat :=
  match announced b with
  | none => ([replacement], [], 0)
  | some [] => ([Char.ofNat b.toNat], [], 0)
  | some (r :: owed) =>
    ([], r :: owed, if b < 0xE0 then b.toNat - 0xC0 else if b < 0xF0 then b.toNat - 0xE0
      else b.toNat - 0xF0)

/-- Decodes from inside a character with the given bits so far; a byte that ends
a faulty character is looked at again as a beginning. -/
def decodeFrom : List Range → Nat → Bytes → List Char
  | [], _, [] => []
  | _ :: _, _, [] => [replacement]
  | [], _, b :: bs => (lead b).1 ++ decodeFrom (lead b).2.1 (lead b).2.2 bs
  | r :: owed, code, b :: bs =>
    if r.1 ≤ b ∧ b ≤ r.2 then
      let code := code * 64 + (b.toNat - 0x80)
      if owed.isEmpty then Char.ofNat code :: decodeFrom [] 0 bs else decodeFrom owed code bs
    else replacement :: (lead b).1 ++ decodeFrom (lead b).2.1 (lead b).2.2 bs

/-- The text of a byte sequence, with one replacement character for each fault. -/
def readable (bs : Bytes) : String := String.ofList (decodeFrom [] 0 bs)

end Utf8

end StateGraph
