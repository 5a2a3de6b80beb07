set_option autoImplicit false

/-!
# Double-precision numbers as bit patterns

Attribute values compare floating-point numbers by their bits, so that NaN
equals itself and the two zeros are told apart, and a NaN keeps its payload
through every store and file.  A number is therefore held as its 64 bits.

The order used by tolerances and probability bounds is the numeric one.  It is
read off the bits through an integer key, so that its laws are laws of `Int`:
both zeros have key 0, and a NaN is not comparable to anything.  Sums are
computed by the machine operation, rounded to nearest with ties to even.
-/

namespace StateGraph

/-- A double-precision number, given by its bits: sign, eleven bits of exponent,
fifty-two bits of fraction. -/
structure Binary64 where
  bits : UInt64
  deriving DecidableEq, Repr, Inhabited

namespace Binary64

/-! ## Fields -/

/-- Whether the sign bit is set. -/
def isNegative (x : Binary64) : Bool := x.bits >>> 63 == 1

/-- The biased exponent, below 2048. -/
def exponentField (x : Binary64) : Nat := ((x.bits >>> 52) &&& 0x7FF).toNat

/-- The fraction, below 2^52. -/
def fraction (x : Binary64) : Nat := (x.bits &&& 0xFFFFFFFFFFFFF).toNat

/-- All bits but the sign. -/
def magnitude (x : Binary64) : Nat := (x.bits &&& 0x7FFFFFFFFFFFFFFF).toNat

/-- Not a number: the top exponent with a fraction. -/
def isNaN (x : Binary64) : Bool := x.exponentField == 2047 && x.fraction != 0

/-- Neither infinite nor NaN. -/
def isFinite (x : Binary64) : Bool := x.exponentField != 2047

/-! ## Constants and conversions -/

/-- Positive zero. -/
def zero : Binary64 := ⟨0⟩

/-- The number 1. -/
def one : Binary64 := ⟨0x3FF0000000000000⟩

/-- The quiet NaN without payload. -/
def nan : Binary64 := ⟨0x7FF8000000000000⟩

/-- The bits of a machine number. -/
def ofFloat (x : Float) : Binary64 := ⟨x.toBits⟩

/-- The machine number with these bits; every NaN becomes the one NaN. -/
def toFloat (x : Binary64) : Float := Float.ofBits x.bits

/-- The nearest number to a 64-bit integer. -/
def ofInt64 (n : Int64) : Binary64 := ofFloat n.toFloat

/-- The nearest number to an unsigned 64-bit integer. -/
def ofUInt64 (n : UInt64) : Binary64 := ofFloat n.toFloat

/-! ## Arithmetic -/

/-- The sum, rounded to nearest. -/
def add (x y : Binary64) : Binary64 := ofFloat (x.toFloat + y.toFloat)

/-- The difference, rounded to nearest. -/
def sub (x y : Binary64) : Binary64 := ofFloat (x.toFloat - y.toFloat)

/-- The product, rounded to nearest. -/
def mul (x y : Binary64) : Binary64 := ofFloat (x.toFloat * y.toFloat)

/-- The quotient, rounded to nearest. -/
def div (x y : Binary64) : Binary64 := ofFloat (x.toFloat / y.toFloat)

/-- The number without its sign. -/
def abs (x : Binary64) : Binary64 := ⟨x.bits &&& 0x7FFFFFFFFFFFFFFF⟩

/-- The number with the opposite sign. -/
def neg (x : Binary64) : Binary64 := ⟨x.bits ^^^ 0x8000000000000000⟩

/-! ## Order -/

/-- The position of a number that is not NaN on the line of such numbers; both
zeros stand at 0. -/
def rank (x : Binary64) : Int := if x.isNegative then -(x.magnitude : Int) else x.magnitude

/-- Numeric "at most"; false if either side is NaN. -/
def le (x y : Binary64) : Bool := !x.isNaN && !y.isNaN && decide (x.rank ≤ y.rank)

/-- Numeric "below"; false if either side is NaN. -/
def lt (x y : Binary64) : Bool := !x.isNaN && !y.isNaN && decide (x.rank < y.rank)

theorem le_iff (x y : Binary64) :
    le x y = true ↔ x.isNaN = false ∧ y.isNaN = false ∧ x.rank ≤ y.rank := by
  simp [le, and_assoc]

theorem lt_iff (x y : Binary64) :
    lt x y = true ↔ x.isNaN = false ∧ y.isNaN = false ∧ x.rank < y.rank := by
  simp [lt, and_assoc]

theorem le_trans {x y z : Binary64} (hxy : le x y = true) (hyz : le y z = true) :
    le x z = true := by
  rw [le_iff] at *
  exact ⟨hxy.1, hyz.2.1, Int.le_trans hxy.2.2 hyz.2.2⟩

theorem lt_of_le_of_lt {x y z : Binary64} (hxy : le x y = true) (hyz : lt y z = true) :
    lt x z = true := by
  rw [le_iff] at hxy
  rw [lt_iff] at *
  exact ⟨hxy.1, hyz.2.1, Int.lt_of_le_of_lt hxy.2.2 hyz.2.2⟩

end Binary64

end StateGraph
