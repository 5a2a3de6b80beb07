import Mathlib
import StateGraph.Binary64

set_option autoImplicit false

/-!
# Sums of two numbers

Sums are rounded, so three numbers may have another sum in another order.  Two numbers do
not: from zero they are added in either order (`Binary64.zero_add_add_comm`).

A number is unpacked into sign, mantissa and exponent before it is added, and a sum is
packed into bits again; what has been unpacked is not changed by being packed and unpacked
(`Binary64.unpack_pack_unpack`), though the bits of a number that is not one may be.
-/

namespace StateGraph.Binary64

open Float.Model (Format UnpackedFloat)
open Float.Model.UnpackedFloat

/-! ## Unpacked sums -/

theorem unpacked_add_comm (x y : UnpackedFloat) : x.add .binary64 y = y.add .binary64 x := by
  cases x <;> cases y <;> try rfl
  case infinity.infinity s s' => cases s <;> cases s' <;> rfl
  case zero.zero s s' => cases s <;> cases s' <;> rfl
  case finite.finite s m e _ s' m' e' _ => simp only [UnpackedFloat.add, min_comm e e', add_comm]

/-- Zero is added to any number but a zero without effect. -/
theorem unpacked_zero_add (x : UnpackedFloat) :
    (∃ s, x = .zero s) ∨ (UnpackedFloat.zero .positive).add .binary64 x = x := by
  cases x with
  | zero s => exact .inl ⟨s, rfl⟩
  | notANumber => exact .inr rfl
  | infinity s => exact .inr rfl
  | finite s m e hm => exact .inr rfl

theorem unpacked_zero_add_zero (s : Sign) :
    (UnpackedFloat.zero .positive).add .binary64 (.zero s) = .zero .positive := by
  cases s <;> rfl

/-- What was added to zero is not changed by either zero. -/
theorem unpacked_zero_add_add_zero (x : UnpackedFloat) (s : Sign) :
    ((UnpackedFloat.zero .positive).add .binary64 x).add .binary64 (.zero s) =
      (UnpackedFloat.zero .positive).add .binary64 x := by
  cases x with
  | zero s' => rw [unpacked_zero_add_zero, unpacked_zero_add_zero]
  | notANumber => rfl
  | infinity s' => rfl
  | finite s' m e hm => rfl

/-- After zero, two numbers are added in either order. -/
theorem unpacked_zero_add_add_comm (x y : UnpackedFloat) :
    ((UnpackedFloat.zero .positive).add .binary64 x).add .binary64 y =
      ((UnpackedFloat.zero .positive).add .binary64 y).add .binary64 x := by
  rcases unpacked_zero_add x with ⟨s, rfl⟩ | hx
  · rw [unpacked_zero_add_zero, unpacked_zero_add_add_zero]
  · rcases unpacked_zero_add y with ⟨s, rfl⟩ | hy
    · rw [unpacked_zero_add_zero, unpacked_zero_add_add_zero]
    · rw [hx, hy, unpacked_add_comm]

/-! ## Packing and unpacking -/

theorem unpack_of_isNaNBits {b : BitVec 64} (hnan : @isNaNBits .binary64 b = true) :
    unpack .binary64 b = .notANumber := by
  simp only [isNaNBits, decide_eq_true_eq] at hnan
  simp [unpack, hnan]

theorem unpack_pack_unpack (b : BitVec 64) :
    unpack .binary64 (pack .binary64 (unpack .binary64 b)) = unpack .binary64 b := by
  rw [@pack_unpack .binary64 b (by decide)]
  split
  case isTrue hnan => rw [unpack_packedNaN, unpack_of_isNaNBits hnan]
  case isFalse => rfl

theorem unpack_pack_zero_add (b : BitVec 64) :
    unpack .binary64 (pack .binary64
      ((UnpackedFloat.zero .positive).add .binary64 (unpack .binary64 b))) =
      (UnpackedFloat.zero .positive).add .binary64 (unpack .binary64 b) := by
  rcases unpacked_zero_add (unpack .binary64 b) with ⟨s, hzero⟩ | hsame
  · rw [hzero, unpacked_zero_add_zero]
    rfl
  · rw [hsame, unpack_pack_unpack]

/-! ## Sums -/

/-- A number unpacked. -/
def unpacked (x : Binary64) : UnpackedFloat := unpack .binary64 x.bits.toBitVec

theorem eq_of_toBitVec_eq {x y : Binary64} (hbits : x.bits.toBitVec = y.bits.toBitVec) : x = y := by
  cases x
  cases y
  exact congrArg Binary64.mk (UInt64.toBitVec_inj.1 hbits)

/-- The bits of a sum. -/
theorem toBitVec_add (x y : Binary64) :
    (x.add y).bits.toBitVec = pack .binary64 (x.unpacked.add .binary64 y.unpacked) := by
  show pack .binary64 (UnpackedFloat.add .binary64 (unpack .binary64 (pack .binary64 x.unpacked))
    (unpack .binary64 (pack .binary64 y.unpacked))) = _
  rw [unpacked, unpacked, unpack_pack_unpack, unpack_pack_unpack]

theorem unpacked_zero_left (x : Binary64) :
    (zero.add x).unpacked = (UnpackedFloat.zero .positive).add .binary64 x.unpacked := by
  rw [unpacked, toBitVec_add]
  exact unpack_pack_zero_add x.bits.toBitVec

/-- From zero, two numbers are added in either order. -/
theorem zero_add_add_comm (x y : Binary64) : (zero.add x).add y = (zero.add y).add x := by
  refine eq_of_toBitVec_eq ?_
  rw [toBitVec_add, toBitVec_add, unpacked_zero_left, unpacked_zero_left,
    unpacked_zero_add_add_comm]

end StateGraph.Binary64
