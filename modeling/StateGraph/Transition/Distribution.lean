import StateGraph.Decimal.Layout

set_option autoImplicit false

/-!
# Probability distributions

A list of numbers is accepted as a distribution if each lies in the unit
interval, there is at least one, and their sum, taken in order, is within the
tolerance of 1.  The faults are looked for in this order, so a number outside the
interval is reported although it may be the only one.
-/

namespace StateGraph

/-- Why a list of numbers is not a distribution. -/
inductive DistributionFault where
  /-- a number outside the unit interval, or not a number -/
  | outside (p : Binary64)
  /-- no number at all -/
  | noSuccessors
  /-- the sum is too far from 1 -/
  | sum (total : Binary64)
  deriving DecidableEq, Repr

/-- The text of a fault. -/
def DistributionFault.message : DistributionFault → String
  | .outside p => "probability " ++ p.text .readable ++ " is outside [0, 1]"
  | .noSuccessors => "no successors"
  | .sum total => "probabilities sum to " ++ total.text .readable ++ ", expected 1.0"

namespace Distribution

/-- Whether a number is finite and lies in the unit interval. -/
def isProbability (p : Binary64) : Bool :=
  p.isFinite && Binary64.zero.le p && p.le .one

/-- Adds up probabilities from the front, stopping at the first number that is
not one. -/
def sumFrom (total : Binary64) : List Binary64 → Except DistributionFault Binary64
  | [] => .ok total
  | p :: ps => if isProbability p then sumFrom (total.add p) ps else .error (.outside p)

/-- How far a sum is from 1. -/
def distance (total : Binary64) : Binary64 := (total.sub .one).abs

/-- Accepts a list of numbers as a distribution. -/
def check (ps : List Binary64) (tolerance : Binary64) : Except DistributionFault Unit :=
  match sumFrom .zero ps with
  | .error e => .error e
  | .ok total =>
    if ps.isEmpty then .error .noSuccessors
    else if tolerance.lt (distance total) then .error (.sum total)
    else .ok ()

end Distribution

end StateGraph
