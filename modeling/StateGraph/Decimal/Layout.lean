import StateGraph.Decimal.Shortest

set_option autoImplicit false

/-!
# How a number is written

The digits of a number are those of `Dyadic.shortest`; everything else about its
text is a decision of the place where it is written, and the decisions of one
place form one `Layout`.  Three places write numbers: readable text, quoted text
in messages, and JSON.
-/

namespace StateGraph

/-- The decisions of one text format for numbers. -/
structure Layout where
  /-- the decimal exponents of the leading digit that are written positionally;
  `none` writes every number so -/
  positional : Option (Int × Int)
  /-- an integer ends in `.0` in positional form -/
  pointZero : Bool
  /-- a positive exponent carries a sign -/
  signedExponent : Bool
  /-- the choice between two equally near decimals -/
  tie : Tie
  deriving DecidableEq, Repr

namespace Layout

/-- Readable text: positional throughout, integers without a point. -/
def readable : Layout := ⟨none, false, false, .upward⟩

/-- Text in messages: `1.0`, and an exponent below `1e-4` and from `1e16` on. -/
def quoted : Layout := ⟨some (-4, 16), true, false, .upward⟩

/-- JSON numbers: `1.0`, and a signed exponent below `1e-5` and from `1e+16` on. -/
def json : Layout := ⟨some (-5, 16), true, true, .toEven⟩

/-- Digits with the point set after position `n + exponent`. -/
def writePositional (l : Layout) (ds : List Char) (exponent : Int) : List Char :=
  let n := (ds.length : Int) + exponent
  if 0 ≤ exponent then
    ds ++ List.replicate exponent.toNat '0' ++ (if l.pointZero then ['.', '0'] else [])
  else if 0 < n then
    ds.take n.toNat ++ '.' :: ds.drop n.toNat
  else
    '0' :: '.' :: List.replicate (-n).toNat '0' ++ ds

/-- The leading digit, the others behind a point, and the exponent. -/
def writeScientific (l : Layout) (ds : List Char) (exponent : Int) : List Char :=
  let e := (ds.length : Int) + exponent - 1
  let point := if ds.length ≤ 1 then [] else ['.']
  let sign := if e < 0 then ['-'] else if l.signedExponent then ['+'] else []
  ds.take 1 ++ point ++ ds.drop 1 ++ 'e' :: sign ++ Nat.toDigits 10 e.natAbs

/-- The text of a decimal. -/
def write (l : Layout) (d : Decimal) : List Char :=
  let ds := Nat.toDigits 10 d.digits
  let e := (ds.length : Int) + d.exponent - 1
  match l.positional with
  | none => l.writePositional ds d.exponent
  | some (low, high) =>
    if d.digits = 0 ∨ (low ≤ e ∧ e < high) then l.writePositional ds d.exponent
    else l.writeScientific ds d.exponent

end Layout

/-- The text of a number: the sign also of a negative zero, the names of NaN and
the infinities, and otherwise the shortest digits. -/
def Binary64.text (l : Layout) (x : Binary64) : String :=
  if x.isNaN then "NaN"
  else
    let sign := if x.isNegative then "-" else ""
    if x.isFinite then
      let d := if x.magnitude = 0 then ⟨0, 0⟩ else x.dyadic.shortest l.tie
      sign ++ String.ofList (l.write d)
    else sign ++ "inf"

end StateGraph
