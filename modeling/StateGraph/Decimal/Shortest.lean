import StateGraph.Binary64

set_option autoImplicit false

/-!
# The fewest digits that identify a number

A finite number `m * 2^q` is the value to which every real of an interval
rounds: from halfway to the neighbour below to halfway to the neighbour above,
ends included exactly when `m` is even.  `Dyadic.shortest` selects the decimal
with the fewest digits inside that interval and, among those, the one nearest
to the number.  All tests are exact, on natural numbers.

Two decimals can be equally near; which of them is taken is a decision of the
text that is written, and so an argument.
-/

namespace StateGraph

/-- A finite number `significand * 2^exponent`, without its sign. -/
structure Dyadic where
  significand : Nat
  exponent : Int
  /-- the neighbour below is half as far away as the neighbour above -/
  narrowBelow : Bool
  deriving DecidableEq, Repr

/-- A decimal `digits * 10^exponent`. -/
structure Decimal where
  digits : Nat
  exponent : Int
  deriving DecidableEq, Repr

/-- Which of two equally near decimals is selected. -/
inductive Tie where
  | toEven
  | upward
  deriving DecidableEq, Repr

/-- The size of a finite number. -/
def Binary64.dyadic (x : Binary64) : Dyadic :=
  if x.exponentField = 0 then ⟨x.fraction, -1074, false⟩
  else ⟨0x10000000000000 + x.fraction, (x.exponentField : Int) - 1075,
    decide (x.fraction = 0) && decide (1 < x.exponentField)⟩

/-- Compares `a * 10^i` with `n * 2^j`, exactly. -/
def compareScaled (a : Nat) (i : Int) (n : Nat) (j : Int) : Ordering :=
  compare (a * Nat.pow 10 i.toNat * Nat.pow 2 (-j).toNat)
    (n * Nat.pow 2 j.toNat * Nat.pow 10 (-i).toNat)

namespace Dyadic

/-- Whether a decimal lies among the reals that round to the number. -/
def readsBack (x : Dyadic) (d : Decimal) : Bool :=
  let below := if x.narrowBelow then 4 * x.significand - 1 else 4 * x.significand - 2
  let above := 4 * x.significand + 2
  let closed := x.significand % 2 == 0
  let low := compareScaled d.digits d.exponent below (x.exponent - 2)
  let high := compareScaled d.digits d.exponent above (x.exponent - 2)
  (low == .gt || (closed && low == .eq)) && (high == .lt || (closed && high == .eq))

/-- The least `k` with `x < 10^k`, for a number that is not zero.  The binary
logarithm locates it up to three steps. -/
def decade (x : Dyadic) : Int :=
  let guess := ((x.significand.log2 : Int) + x.exponent) * 1233 / 4096 - 1
  let candidates := [guess, guess + 1, guess + 2, guess + 3]
  (candidates.find? fun k => compareScaled 1 k x.significand x.exponent == .gt).getD (guess + 4)

/-- The number of whole steps `10^e` below the number. -/
def wholeSteps (x : Dyadic) (e : Int) : Nat :=
  (x.significand * Nat.pow 2 x.exponent.toNat * Nat.pow 10 (-e).toNat) /
    (Nat.pow 10 e.toNat * Nat.pow 2 (-x.exponent).toNat)

/-- The decimal on the grid `10^e` that reads back and is nearest, if one of the
number's two neighbours on that grid reads back. -/
def onGrid (tie : Tie) (x : Dyadic) (e : Int) : Option Decimal :=
  let n := x.wholeSteps e
  let down : Decimal := ⟨n, e⟩
  let up : Decimal := ⟨n + 1, e⟩
  match x.readsBack down, x.readsBack up with
  | false, false => none
  | true, false => some down
  | false, true => some up
  | true, true =>
    match compareScaled (2 * n + 1) e (2 * x.significand) x.exponent with
    | .gt => some down
    | .lt => some up
    | .eq => match tie with
      | .upward => some up
      | .toEven => some (if n % 2 = 0 then down else up)

/-- The exact decimal value. -/
def exact (x : Dyadic) : Decimal :=
  if 0 ≤ x.exponent then ⟨x.significand * Nat.pow 2 x.exponent.toNat, 0⟩
  else ⟨x.significand * Nat.pow 5 (-x.exponent).toNat, x.exponent⟩

end Dyadic

namespace Decimal

/-- Moves up to `fuel` trailing zeros of the digits into the exponent. -/
def dropZeros : Nat → Decimal → Decimal
  | 0, d => d
  | fuel + 1, d => if d.digits % 10 = 0 then dropZeros fuel ⟨d.digits / 10, d.exponent + 1⟩ else d

end Decimal

/-- The shortest decimal that reads back as the number, and the nearest of
those.  Seventeen digits identify every number, so the exact value is never
needed. -/
def Dyadic.shortest (tie : Tie) (x : Dyadic) : Decimal :=
  let k := x.decade
  let found := (List.range 17).findSome? fun (n : Nat) => x.onGrid tie (k - ((n : Int) + 1))
  (found.getD x.exact).dropZeros 18

end StateGraph
