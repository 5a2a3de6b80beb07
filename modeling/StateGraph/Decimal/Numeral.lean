import StateGraph.Binary64

set_option autoImplicit false

/-!
# Numbers in JSON texts

A numeral is kept as it was written until it is known what it stands for: an
integer takes only a plain run of digits within range, a floating-point number
takes every numeral that does not overflow.

A floating-point number is read by one scaling.  As many leading digits as fit 64
bits are taken as an integer; what is left out of the digits before the point
raises the power of ten, digits after the point lower it as long as they are
taken.  The integer is rounded to a number and multiplied or divided by the
power of ten, which is rounded too, so the result can differ from the nearest
number in its last bit.
-/

namespace StateGraph

/-- A numeral as written: sign, digits before the point, digits after it,
exponent with the sign it was given. -/
structure Numeral where
  negative : Bool
  whole : List Nat
  fraction : Option (List Nat)
  exponent : Option (Bool × List Nat)
  deriving DecidableEq, Repr

namespace Numeral

/-! ## Reading -/

/-- The value of a decimal digit. -/
def digit? (c : Char) : Option Nat :=
  if '0' ≤ c ∧ c ≤ '9' then some (c.toNat - 48) else none

/-- The longest run of digits at the front, and what follows it. -/
def digits : List Char → List Nat × List Char
  | [] => ([], [])
  | c :: cs =>
    match digit? c with
    | some d => (d :: (digits cs).1, (digits cs).2)
    | none => ([], c :: cs)

/-- At least one digit. -/
def digits1 (cs : List Char) : Option (List Nat × List Char) :=
  match digits cs with
  | ([], _) => none
  | (ds, rest) => some (ds, rest)

/-- The digits before the point: a single zero, or digits that begin with
another one. -/
def readWhole (cs : List Char) : Option (List Nat × List Char) :=
  match digits cs with
  | ([], _) => none
  | ([0], rest) => some ([0], rest)
  | (0 :: _ :: _, _) => none
  | (ds, rest) => some (ds, rest)

/-- The digits after a point, if there is a point. -/
def readFraction : List Char → Option (Option (List Nat) × List Char)
  | '.' :: cs => (digits1 cs).map fun (ds, rest) => (some ds, rest)
  | cs => some (none, cs)

/-- The exponent, if there is one; `true` marks a minus sign. -/
def readExponent : List Char → Option (Option (Bool × List Nat) × List Char)
  | [] => some (none, [])
  | c :: cs =>
    if c = 'e' ∨ c = 'E' then
      let (minus, body) := match cs with
        | '+' :: r => (false, r)
        | '-' :: r => (true, r)
        | r => (false, r)
      (digits1 body).map fun (ds, rest) => (some (minus, ds), rest)
    else some (none, c :: cs)

/-- Reads a numeral from the front of a text. -/
def read (cs : List Char) : Option (Numeral × List Char) := do
  let (negative, cs) := match cs with
    | '-' :: r => (true, r)
    | r => (false, r)
  let (whole, cs) ← readWhole cs
  let (fraction, cs) ← readFraction cs
  let (exponent, cs) ← readExponent cs
  return (⟨negative, whole, fraction, exponent⟩, cs)

/-! ## Integers -/

/-- The number that decimal digits denote. -/
def value (ds : List Nat) : Nat := ds.foldl (fun n d => n * 10 + d) 0

/-- The integer a numeral stands for.  A point, an exponent or the sign of a
zero makes it a fractional number. -/
def integer? (x : Numeral) : Option Int :=
  if x.fraction.isSome || x.exponent.isSome then none
  else if x.negative then
    if value x.whole = 0 then none else some (-(value x.whole : Int))
  else some (value x.whole)

/-! ## Floating-point numbers -/

/-- The digits taken so far, as an integer below `2^64`. -/
def capacity : Nat := UInt64.size

/-- Takes digits as long as the integer stays below `2^64`; returns the integer
and the digits left. -/
def take : Nat → List Nat → Nat × List Nat
  | n, [] => (n, [])
  | n, d :: ds => if n * 10 + d < capacity then take (n * 10 + d) ds else (n, d :: ds)

/-- The power of ten `10^k`, rounded, for `k` up to 308. -/
def powerOfTen (k : Nat) : Binary64 := .ofFloat (Float.ofScientific 1 false k)

/-- Scales a number that is not negative by `10^e`; `none` if the result
overflows.  A division by more than `10^308` is done in steps. -/
def scale (x : Binary64) (e : Int) : Option Binary64 :=
  if 0 ≤ e then
    if e ≤ 308 then
      let y := x.mul (powerOfTen e.toNat)
      if y.isFinite then some y else none
    else if x.magnitude = 0 then some x
    else none
  else if -308 ≤ e then some (x.div (powerOfTen (-e).toNat))
  else if x.magnitude = 0 then some x
  else scale (x.div (powerOfTen 308)) (e + 308)
termination_by (-e).toNat

/-- The largest exponent that is evaluated; beyond it a numeral is zero or
overflows. -/
def exponentLimit : Nat := 2147483647

/-- The absolute value of a numeral; `none` if it overflows. -/
def size? (x : Numeral) : Option Binary64 :=
  let (n, left) := take 0 x.whole
  match x.fraction, x.exponent with
  | none, none => scale (.ofUInt64 n.toUInt64) left.length
  | fraction, exponent =>
    let ds := fraction.getD []
    let (n, ds') := take n ds
    let e := (left.length : Int) - ((ds.length - ds'.length : Nat) : Int)
    match exponent with
    | none => scale (.ofUInt64 n.toUInt64) e
    | some (minus, es) =>
      if value es ≤ exponentLimit then
        scale (.ofUInt64 n.toUInt64) (if minus then e - value es else e + value es)
      else if minus || n == 0 then some .zero
      else none

/-- The floating-point number a numeral stands for; `none` if it overflows. -/
def float? (x : Numeral) : Option Binary64 :=
  x.size?.map fun y => if x.negative then y.neg else y

end Numeral

end StateGraph
