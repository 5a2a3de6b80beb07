import Mathlib
import StateGraph.Decimal.Layout

set_option autoImplicit false

/-!
# Decimals that identify a number

The finite numbers divide the positive reals among them: each number has the reals that
round to it (`Dyadic.Covers`), from halfway to its neighbour below to halfway to its
neighbour above.  No real has two numbers (`Binary64.eq_of_covers`): where one number's
reals end those of the next begin, and of two neighbours only one has the real between
them.

The decimal that is written of a number is one of the number's reals
(`Binary64.covers_written`), so it tells which number was written, and its sign.
-/

namespace StateGraph

/-! ## Exact comparisons -/

/-- The number that a decimal denotes. -/
def Decimal.value (d : Decimal) : ℚ := d.digits * 10 ^ d.exponent

/-- A power without its negative exponent. -/
theorem zpow_mul_pow_toNat_neg {b : ℚ} (hb : b ≠ 0) (i : ℤ) :
    b ^ i * b ^ (-i).toNat = b ^ i.toNat := by
  rw [← zpow_natCast, ← zpow_natCast, ← zpow_add₀ hb]
  congr 1
  omega

theorem compare_natCast (a b : ℕ) : compare (a : ℚ) b = compare a b := by
  rw [← cmp_eq_compare, ← cmp_eq_compare]
  exact (Nat.strictMono_cast (α := ℚ)).cmp_map_eq a b

theorem compare_mul_right {c : ℚ} (hc : 0 < c) (a b : ℚ) :
    compare (a * c) (b * c) = compare a b := by
  rw [← cmp_eq_compare, ← cmp_eq_compare]
  exact (strictMono_mul_right_of_pos hc).cmp_map_eq a b

/-- The comparison on natural numbers is that of the numbers meant. -/
theorem compareScaled_eq (a : ℕ) (i : ℤ) (n : ℕ) (j : ℤ) :
    compareScaled a i n j = compare ((a : ℚ) * 10 ^ i) (n * 2 ^ j) := by
  have h10 := zpow_mul_pow_toNat_neg (b := 10) (by norm_num) i
  have h2 := zpow_mul_pow_toNat_neg (b := 2) (by norm_num) j
  have hpos : (0 : ℚ) < 10 ^ (-i).toNat * 2 ^ (-j).toNat := by positivity
  rw [compareScaled, ← compare_natCast, ← compare_mul_right hpos (a * 10 ^ i) (n * 2 ^ j)]
  congr 1 <;> push_cast [Nat.pow_eq]
  · rw [← h10]
    ring
  · rw [← h2]
    ring

namespace Dyadic

/-! ## The reals that round to a number -/

/-- The point halfway to the neighbour below. -/
def lower (x : Dyadic) : ℚ :=
  ((if x.narrowBelow then 4 * x.significand - 1 else 4 * x.significand - 2 : ℕ) : ℚ) *
    2 ^ (x.exponent - 2)

/-- The point halfway to the neighbour above. -/
def upper (x : Dyadic) : ℚ := ((4 * x.significand + 2 : ℕ) : ℚ) * 2 ^ (x.exponent - 2)

/-- A real rounds to a number: it lies between the halfway points, and is one of them only
if the significand is even. -/
structure Covers (x : Dyadic) (r : ℚ) : Prop where
  lower_le : x.lower < r ∨ x.significand % 2 = 0 ∧ x.lower = r
  le_upper : r < x.upper ∨ x.significand % 2 = 0 ∧ r = x.upper

theorem readsBack_iff (x : Dyadic) (d : Decimal) :
    x.readsBack d = true ↔ x.Covers d.value := by
  have hlow : compareScaled d.digits d.exponent
      (if x.narrowBelow then 4 * x.significand - 1 else 4 * x.significand - 2) (x.exponent - 2) =
        compare d.value x.lower := compareScaled_eq _ _ _ _
  have hhigh : compareScaled d.digits d.exponent (4 * x.significand + 2) (x.exponent - 2) =
      compare d.value x.upper := compareScaled_eq _ _ _ _
  simp only [readsBack, hlow, hhigh, Bool.and_eq_true, Bool.or_eq_true, beq_iff_eq,
    compare_gt_iff_gt, compare_lt_iff_lt, compare_eq_iff_eq]
  constructor
  · rintro ⟨hlow, hhigh⟩
    exact ⟨hlow.imp_right fun h => ⟨h.1, h.2.symm⟩, hhigh⟩
  · rintro ⟨hlow, hhigh⟩
    exact ⟨hlow.imp_right fun h => ⟨h.1, h.2.symm⟩, hhigh⟩

/-! ## What is written -/

theorem value_dropZeros (fuel : ℕ) (d : Decimal) : (d.dropZeros fuel).value = d.value := by
  induction fuel generalizing d with
  | zero => rfl
  | succ fuel ih =>
    unfold Decimal.dropZeros
    split
    · rename_i hzero
      rw [ih]
      have hdigits : (d.digits : ℚ) = (d.digits / 10 : ℕ) * 10 := by
        exact_mod_cast (Nat.div_mul_cancel (Nat.dvd_of_mod_eq_zero hzero)).symm
      rw [Decimal.value, Decimal.value, hdigits, zpow_add_one₀ (by norm_num)]
      ring
    · rfl

theorem readsBack_of_onGrid {tie : Tie} {x : Dyadic} {e : ℤ} {d : Decimal}
    (hgrid : x.onGrid tie e = some d) : x.readsBack d = true := by
  unfold onGrid at hgrid
  grind

theorem value_exact (x : Dyadic) : x.exact.value = x.significand * 2 ^ x.exponent := by
  unfold exact
  split
  · rename_i hpos
    obtain ⟨n, hn⟩ := Int.eq_ofNat_of_zero_le hpos
    simp [Decimal.value, hn]
  · rename_i hneg
    obtain ⟨n, hn⟩ : ∃ n : ℕ, x.exponent = -n := ⟨(-x.exponent).toNat, by omega⟩
    simp only [Decimal.value, hn]
    rw [neg_neg, Int.toNat_natCast, zpow_neg, zpow_neg, zpow_natCast, zpow_natCast]
    push_cast [Nat.pow_eq]
    rw [show (10 : ℚ) = 2 * 5 by norm_num, mul_pow]
    field_simp

/-- A number that is not zero lies between its halfway points. -/
theorem covers_self (x : Dyadic) (hx : x.significand ≠ 0) :
    x.Covers (x.significand * 2 ^ x.exponent) := by
  have hpow : (0 : ℚ) < 2 ^ (x.exponent - 2) := by positivity
  have hscale : (x.significand : ℚ) * 2 ^ x.exponent =
      ((4 * x.significand : ℕ) : ℚ) * 2 ^ (x.exponent - 2) := by
    rw [zpow_sub₀ (by norm_num)]
    push_cast
    ring
  constructor
  · left
    rw [hscale, lower]
    refine mul_lt_mul_of_pos_right (Nat.cast_lt.2 ?_) hpow
    split <;> omega
  · left
    rw [hscale, upper]
    exact mul_lt_mul_of_pos_right (Nat.cast_lt.2 (by omega)) hpow

/-- Zero rounds to zero only. -/
theorem not_covers_zero {x : Dyadic} (hx : x.significand ≠ 0) : ¬ x.Covers 0 := by
  have hlower : 0 < x.lower := by
    have hpow : (0 : ℚ) < 2 ^ (x.exponent - 2) := by positivity
    refine mul_pos (Nat.cast_pos.2 ?_) hpow
    split <;> omega
  rintro ⟨hlow | ⟨-, heq⟩, -⟩
  · exact absurd hlow (not_lt.2 hlower.le)
  · exact absurd heq hlower.ne'

/-- The shortest decimal of a number that is not zero rounds to it. -/
theorem covers_shortest (tie : Tie) (x : Dyadic) (hx : x.significand ≠ 0) :
    x.Covers (x.shortest tie).value := by
  rw [shortest, value_dropZeros]
  cases hfound : (List.range 17).findSome? fun n : ℕ => x.onGrid tie (x.decade - ((n : ℤ) + 1)) with
  | none =>
    rw [Option.getD_none, value_exact]
    exact x.covers_self hx
  | some d =>
    obtain ⟨n, -, hgrid⟩ := List.exists_of_findSome?_eq_some hfound
    exact (readsBack_iff x d).1 (readsBack_of_onGrid hgrid)

/-! ## One number for each real -/

theorem lower_lt_upper (x : Dyadic) : x.lower < x.upper := by
  have hpow : (0 : ℚ) < 2 ^ (x.exponent - 2) := by positivity
  refine mul_lt_mul_of_pos_right (Nat.cast_lt.2 ?_) hpow
  split <;> omega

/-- The number with an exponent field and a fraction. -/
def ofFields (e f : ℕ) : Dyadic :=
  if e = 0 then ⟨f, -1074, false⟩
  else ⟨0x10000000000000 + f, (e : ℤ) - 1075, decide (f = 0) && decide (1 < e)⟩

/-- The number with a magnitude, whose fields stand side by side in it. -/
def ofMagnitude (m : ℕ) : Dyadic := ofFields (m / 0x10000000000000) (m % 0x10000000000000)

/-- Where the reals of one fraction end, those of the next begin. -/
theorem lower_ofFields_succ (e f : ℕ) : (ofFields e (f + 1)).lower = (ofFields e f).upper := by
  by_cases he : e = 0
  · simp only [ofFields, he, if_true, lower, upper, Bool.false_eq_true, if_false]
    congr 2
  · simp only [ofFields, he, if_false, lower, upper, Nat.add_one_ne_zero, decide_false,
      Bool.false_and, Bool.false_eq_true]
    congr 2

/-- Where the reals of the last fraction end, those of the next exponent begin. -/
theorem lower_ofFields_carry (e : ℕ) :
    (ofFields (e + 1) 0).lower = (ofFields e 0xFFFFFFFFFFFFF).upper := by
  by_cases he : e = 0
  · subst he
    norm_num [ofFields, lower, upper]
  · have hlarge : 1 < e + 1 := by omega
    have hexponent : ((e + 1 : ℕ) : ℤ) - 1075 - 2 = e - 1075 - 2 + 1 := by
      push_cast
      ring
    simp only [ofFields, he, if_false, lower, upper, Nat.add_one_ne_zero, decide_true, hlarge,
      Bool.and_self, if_true, hexponent]
    rw [zpow_add_one₀ (by norm_num)]
    push_cast
    ring

/-- Where the reals of one number end, those of the next begin. -/
theorem lower_ofMagnitude_succ (m : ℕ) : (ofMagnitude (m + 1)).lower = (ofMagnitude m).upper := by
  unfold ofMagnitude
  by_cases hcarry : (m + 1) % 0x10000000000000 = 0
  · have hfull : m % 0x10000000000000 = 0xFFFFFFFFFFFFF := by omega
    have hnext : (m + 1) / 0x10000000000000 = m / 0x10000000000000 + 1 := by omega
    rw [hcarry, hfull, hnext, lower_ofFields_carry]
  · have hfraction : (m + 1) % 0x10000000000000 = m % 0x10000000000000 + 1 := by omega
    have hsame : (m + 1) / 0x10000000000000 = m / 0x10000000000000 := by omega
    rw [hfraction, hsame, lower_ofFields_succ]

theorem strictMono_upper : StrictMono fun m => (ofMagnitude m).upper :=
  strictMono_nat_of_lt_succ fun m => by
    rw [← lower_ofMagnitude_succ]
    exact lower_lt_upper _

/-- Of two neighbours, one has an odd significand. -/
theorem significand_ofMagnitude_mod_two (m : ℕ) : (ofMagnitude m).significand % 2 = m % 2 := by
  unfold ofMagnitude ofFields
  split <;> simp only <;> omega

/-- No real rounds to two numbers. -/
theorem not_covers_of_lt {m n : ℕ} (hlt : m < n) {r : ℚ} (hm : (ofMagnitude m).Covers r) :
    ¬ (ofMagnitude n).Covers r := by
  intro hn
  obtain ⟨k, rfl⟩ : ∃ k, n = k + 1 := ⟨n - 1, by omega⟩
  have hmid : (ofMagnitude m).upper ≤ (ofMagnitude k).upper :=
    strictMono_upper.monotone (by omega)
  have hle : r ≤ (ofMagnitude m).upper := hm.le_upper.elim le_of_lt fun h => h.2.le
  have hge : (ofMagnitude k).upper ≤ r :=
    lower_ofMagnitude_succ k ▸ hn.lower_le.elim le_of_lt fun h => h.2.le
  -- the real is the point between two neighbours, and each of them claims it
  have hk : m = k := strictMono_upper.injective (le_antisymm hmid (hge.trans hle))
  subst hk
  have hmeven := (hm.le_upper.resolve_left (not_lt.2 hge)).1
  have hneven := (hn.lower_le.resolve_left
    (not_lt.2 (lower_ofMagnitude_succ m ▸ hle))).1
  rw [significand_ofMagnitude_mod_two] at hmeven hneven
  omega

end Dyadic

namespace Binary64

/-! ## Fields -/

theorem magnitude_eq (x : Binary64) : x.magnitude = x.bits.toNat % 2 ^ 63 := by
  rw [magnitude, UInt64.toNat_and]
  exact Nat.and_two_pow_sub_one_eq_mod _ 63

theorem isNegative_iff (x : Binary64) : x.isNegative = true ↔ 2 ^ 63 ≤ x.bits.toNat := by
  have hbound := x.bits.toNat_lt
  rw [isNegative, beq_iff_eq, ← UInt64.toNat_inj, UInt64.toNat_shiftRight,
    Nat.shiftRight_eq_div_pow]
  show x.bits.toNat / 2 ^ 63 = 1 ↔ _
  omega

theorem exponentField_eq (x : Binary64) :
    x.exponentField = x.magnitude / 0x10000000000000 := by
  rw [magnitude_eq, exponentField, UInt64.toNat_and, UInt64.toNat_shiftRight,
    Nat.shiftRight_eq_div_pow]
  refine (Nat.and_two_pow_sub_one_eq_mod _ 11).trans ?_
  show x.bits.toNat / 2 ^ 52 % 2 ^ 11 = _
  omega

theorem fraction_eq (x : Binary64) : x.fraction = x.magnitude % 0x10000000000000 := by
  rw [magnitude_eq, fraction, UInt64.toNat_and]
  refine (Nat.and_two_pow_sub_one_eq_mod _ 52).trans ?_
  omega

/-- A number is its magnitude and its sign. -/
theorem eq_of_magnitude {x y : Binary64} (hmagnitude : x.magnitude = y.magnitude)
    (hsign : x.isNegative = y.isNegative) : x = y := by
  have hiff : 2 ^ 63 ≤ x.bits.toNat ↔ 2 ^ 63 ≤ y.bits.toNat := by
    rw [← isNegative_iff, ← isNegative_iff, hsign]
  rw [magnitude_eq, magnitude_eq] at hmagnitude
  have hx := x.bits.toNat_lt
  have hy := y.bits.toNat_lt
  have hbits : x.bits = y.bits := UInt64.toNat_inj.1 (by omega)
  cases x
  cases y
  exact congrArg Binary64.mk hbits

theorem dyadic_eq (x : Binary64) : x.dyadic = Dyadic.ofMagnitude x.magnitude := by
  rw [dyadic, Dyadic.ofMagnitude, Dyadic.ofFields, exponentField_eq, fraction_eq]

/-- Numbers with one sign to which one real rounds are one number. -/
theorem eq_of_covers {x y : Binary64} {r : ℚ} (hx : x.dyadic.Covers r) (hy : y.dyadic.Covers r)
    (hsign : x.isNegative = y.isNegative) : x = y := by
  rw [dyadic_eq] at hx hy
  refine eq_of_magnitude ?_ hsign
  rcases lt_trichotomy x.magnitude y.magnitude with hlt | heq | hgt
  · exact absurd hy (Dyadic.not_covers_of_lt hlt hx)
  · exact heq
  · exact absurd hx (Dyadic.not_covers_of_lt hgt hy)

/-- The decimal that is written of a finite number. -/
def written (tie : Tie) (x : Binary64) : Decimal :=
  if x.magnitude = 0 then ⟨0, 0⟩ else x.dyadic.shortest tie

theorem text_of_isFinite (l : Layout) {x : Binary64} (hx : x.isFinite = true) :
    x.text l = (if x.isNegative then "-" else "") ++ String.ofList (l.write (x.written l.tie)) := by
  have hnumber : x.isNaN = false := by
    simp only [isFinite, bne_iff_ne] at hx
    simp [isNaN, hx]
  simp only [text, hnumber, hx, if_true, Bool.false_eq_true, if_false, written]

theorem significand_dyadic_eq_zero {x : Binary64} (hx : x.dyadic.significand = 0) :
    x.magnitude = 0 := by
  rw [dyadic_eq, Dyadic.ofMagnitude, Dyadic.ofFields] at hx
  split at hx <;> simp only at hx <;> omega

/-- Only zero is written with the digit zero alone, and it stands where it is. -/
theorem exponent_written {tie : Tie} {x : Binary64} (hdigits : (x.written tie).digits = 0) :
    (x.written tie).exponent = 0 := by
  unfold written at *
  split at hdigits
  · rename_i hzero
    rw [if_pos hzero]
  · rename_i hpos
    have hsignificand := mt significand_dyadic_eq_zero hpos
    have hcovers := Dyadic.covers_shortest tie x.dyadic hsignificand
    rw [Decimal.value, hdigits, Nat.cast_zero, zero_mul] at hcovers
    exact absurd hcovers (Dyadic.not_covers_zero hsignificand)

/-- The decimal that is written of a number rounds to it. -/
theorem covers_written (tie : Tie) (x : Binary64) : x.dyadic.Covers (x.written tie).value := by
  unfold written
  split
  · rename_i hzero
    rw [dyadic_eq, hzero]
    exact ⟨by norm_num [Dyadic.ofMagnitude, Dyadic.ofFields, Dyadic.lower, Decimal.value],
      by norm_num [Dyadic.ofMagnitude, Dyadic.ofFields, Dyadic.upper, Decimal.value]⟩
  · rename_i hpos
    exact Dyadic.covers_shortest tie x.dyadic (mt significand_dyadic_eq_zero hpos)

end Binary64

end StateGraph
