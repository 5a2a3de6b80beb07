import Mathlib
import StateGraph.Decimal.Numeral
import StateGraph.Proofs.Json.Shortest

set_option autoImplicit false

/-!
# Numerals that are read back

A numeral is written in pieces: digits, digits behind a point, an exponent
(`Numeral.Spelling`).  The reader takes the pieces apart again, whatever follows them, as
long as it does not go on with the numeral (`Numeral.read_text`).

An integer is written with its digits alone and is read as that integer.  A decimal of a
number is written with a point or with an exponent, in one of four forms, and is read as a
numeral that denotes the same decimal (`Layout.exists_spelling_write`).
-/

namespace StateGraph

namespace Numeral

/-! ## Runs of digits -/

/-- A run of digits, at least one. -/
def IsRun (ds : List Char) : Prop := ds ≠ [] ∧ ∀ c ∈ ds, c.isDigit = true

/-- The values of the characters of a run. -/
def figures (ds : List Char) : List Nat := ds.map fun c : Char => c.toNat - 48

theorem digit?_eq (c : Char) : digit? c = if c.isDigit then some (c.toNat - 48) else none := by
  have hiff : ('0' ≤ c ∧ c ≤ '9') ↔ c.isDigit = true := by
    rw [Char.isDigit_iff_toNat]
    exact Iff.rfl
  unfold digit?
  simp only [hiff]

/-- What follows a run does not go on with it. -/
def EndsRun (rest : List Char) : Prop := ∀ c ∈ rest.head?, c.isDigit = false

theorem digits_append {ds rest : List Char} (hds : ∀ c ∈ ds, c.isDigit = true)
    (hrest : EndsRun rest) : digits (ds ++ rest) = (figures ds, rest) := by
  induction ds with
  | nil =>
    cases rest with
    | nil => rfl
    | cons c rest =>
      have hc : digit? c = none := by
        rw [digit?_eq, hrest c rfl]
        rfl
      rw [List.nil_append, digits, hc]
      rfl
  | cons c ds ih =>
    have hc : digit? c = some (c.toNat - 48) := by
      rw [digit?_eq, hds c List.mem_cons_self, if_pos rfl]
    rw [List.cons_append, digits, hc]
    simp only [ih fun c hc => hds c (List.mem_cons_of_mem _ hc)]
    rfl

theorem digits1_append {ds rest : List Char} (hds : IsRun ds) (hrest : EndsRun rest) :
    digits1 (ds ++ rest) = some (figures ds, rest) := by
  rw [digits1, digits_append hds.2 hrest]
  cases ds with
  | nil => exact absurd rfl hds.1
  | cons c ds => rfl

/-- A run is read before the point if it is a zero alone or begins with another digit. -/
theorem readWhole_append {ds rest : List Char} (hds : IsRun ds)
    (hlead : ds = ['0'] ∨ ds.head? ≠ some '0') (hrest : EndsRun rest) :
    readWhole (ds ++ rest) = some (figures ds, rest) := by
  rw [readWhole, digits_append hds.2 hrest]
  obtain rfl | hlead := hlead
  · rfl
  · cases ds with
    | nil => exact absurd rfl hds.1
    | cons c ds =>
      have hc := Char.isDigit_iff_toNat.1 (hds.2 c List.mem_cons_self)
      have hzero : c.toNat ≠ 48 := fun h => hlead (congrArg some (Char.toNat_inj.1 h))
      have hfigure : c.toNat - 48 ≠ 0 := by
        have hlow : 48 ≤ c.toNat := hc.1
        omega
      rw [show figures (c :: ds) = (c.toNat - 48) :: figures ds from rfl]
      generalize c.toNat - 48 = d at hfigure
      split <;> simp_all

/-- The digits of a run denote what the run does. -/
theorem value_figures (ds : List Char) : value (figures ds) = Nat.ofDigitChars 10 ds 0 := by
  rw [value, figures, List.foldl_map, Nat.ofDigitChars_eq_foldl]
  simp only [mul_comm 10]
  rfl

theorem isRun_toDigits (n : ℕ) : IsRun (Nat.toDigits 10 n) :=
  ⟨Nat.toDigits_ne_nil, fun _ hc => Nat.isDigit_of_mem_toDigits (by decide) (by decide) hc⟩

/-- The digits of a number begin with a zero only if it is zero. -/
theorem head?_toDigits {n : ℕ} (hn : n ≠ 0) : (Nat.toDigits 10 n).head? ≠ some '0' := by
  induction n using Nat.strong_induction_on with
  | _ n ih =>
    rw [Nat.toDigits_eq_if (by decide)]
    split
    · simpa using hn
    · rw [List.head?_append_of_ne_nil _ Nat.toDigits_ne_nil]
      exact ih (n / 10) (by omega) (by omega)

/-! ## Pieces -/

/-- A numeral in pieces, without its sign; an exponent is marked if it is negative. -/
structure Spelling where
  whole : List Char
  fraction : Option (List Char)
  exponent : Option (Bool × List Char)

namespace Spelling

/-- The digits behind a point. -/
def pointed : Option (List Char) → List Char
  | none => []
  | some ds => '.' :: ds

/-- The exponent with its sign. -/
def raised : Option (Bool × List Char) → List Char
  | none => []
  | some (minus, ds) => 'e' :: (if minus then '-' else '+') :: ds

/-- The pieces one after another. -/
def text (s : Spelling) : List Char := s.whole ++ (pointed s.fraction ++ raised s.exponent)

/-- The numeral with a sign and these pieces. -/
def numeral (negative : Bool) (s : Spelling) : Numeral :=
  ⟨negative, figures s.whole, s.fraction.map figures, s.exponent.map (Prod.map id figures)⟩

/-- The pieces are runs, and the first one has no zero too many. -/
structure Proper (s : Spelling) : Prop where
  whole : IsRun s.whole
  leading : s.whole = ['0'] ∨ s.whole.head? ≠ some '0'
  fraction : ∀ ds ∈ s.fraction, IsRun ds
  exponent : ∀ p ∈ s.exponent, IsRun p.2

end Spelling

/-- What follows a numeral does not go on with it. -/
def Ends (rest : List Char) : Prop :=
  ∀ c ∈ rest.head?, c.isDigit = false ∧ c ≠ '.' ∧ c ≠ 'e' ∧ c ≠ 'E'

open Spelling

theorem readExponent_raised {exponent : Option (Bool × List Char)}
    (hexponent : ∀ p ∈ exponent, IsRun p.2) {rest : List Char} (hrest : Ends rest) :
    readExponent (raised exponent ++ rest) = some (exponent.map (Prod.map id figures), rest) := by
  cases exponent with
  | none =>
    cases rest with
    | nil => rfl
    | cons c rest =>
      obtain ⟨-, -, he, hE⟩ := hrest c rfl
      simp [raised, readExponent, he, hE]
  | some p =>
    obtain ⟨minus, ds⟩ := p
    have hread := digits1_append (hexponent (minus, ds) rfl) fun c hc => (hrest c hc).1
    cases minus with
    | true =>
      show (digits1 (ds ++ rest)).map _ = _
      rw [hread]
      rfl
    | false =>
      show (digits1 (ds ++ rest)).map _ = _
      rw [hread]
      rfl

theorem ends_raised (exponent : Option (Bool × List Char)) {rest : List Char} (hrest : Ends rest) :
    ∀ c ∈ (raised exponent ++ rest).head?, c.isDigit = false ∧ c ≠ '.' := by
  cases exponent with
  | none => exact fun c hc => ⟨(hrest c hc).1, (hrest c hc).2.1⟩
  | some p =>
    rintro c hc
    cases hc
    decide

theorem readFraction_pointed {fraction : Option (List Char)}
    (hfraction : ∀ ds ∈ fraction, IsRun ds) {rest : List Char}
    (hrest : ∀ c ∈ rest.head?, c.isDigit = false ∧ c ≠ '.') :
    readFraction (pointed fraction ++ rest) = some (fraction.map figures, rest) := by
  cases fraction with
  | none =>
    cases rest with
    | nil => rfl
    | cons c rest =>
      have hpoint := (hrest c rfl).2
      unfold readFraction
      split
      · rename_i heq
        cases heq
        exact absurd rfl hpoint
      · rfl
  | some ds =>
    have hread := digits1_append (hfraction ds rfl) fun c hc => (hrest c hc).1
    show (digits1 (ds ++ rest)).map _ = _
    rw [hread]
    rfl

theorem endsRun_pointed (fraction : Option (List Char)) {rest : List Char}
    (hrest : ∀ c ∈ rest.head?, c.isDigit = false ∧ c ≠ '.') :
    EndsRun (pointed fraction ++ rest) := by
  cases fraction with
  | none => exact fun c hc => (hrest c hc).1
  | some ds =>
    rintro c hc
    cases hc
    decide

/-- The sign before the pieces. -/
def signed (negative : Bool) (cs : List Char) : List Char := if negative then '-' :: cs else cs

/-- A numeral that is written in pieces is read as these pieces. -/
theorem read_text (negative : Bool) {s : Spelling} (hs : s.Proper) {rest : List Char}
    (hrest : Ends rest) :
    read (signed negative (s.text ++ rest)) = some (s.numeral negative, rest) := by
  have hraised := ends_raised s.exponent hrest
  have hwhole := readWhole_append hs.whole hs.leading (endsRun_pointed s.fraction hraised)
  have hfraction := readFraction_pointed hs.fraction hraised
  have hexponent := readExponent_raised hs.exponent hrest
  have hsplit : s.text ++ rest =
      s.whole ++ (pointed s.fraction ++ (raised s.exponent ++ rest)) := by
    simp only [text, List.append_assoc]
  unfold read
  cases negative with
  | true => simp [signed, hsplit, hwhole, hfraction, hexponent, numeral]
  | false =>
    -- the first character is a digit, so it is not taken for a sign
    obtain ⟨c, ds, hc⟩ := List.exists_cons_of_ne_nil hs.whole.1
    have hdigit := hs.whole.2 c (hc ▸ List.mem_cons_self)
    have hunsigned : ∀ cs, s.text ++ rest ≠ '-' :: cs := by
      intro cs heq
      rw [hsplit, hc] at heq
      cases heq
      exact absurd hdigit (by decide)
    simp only [signed, Bool.false_eq_true, if_false]
    simp [hsplit, hwhole, hfraction, hexponent, numeral]

/-! ## What a numeral denotes -/

/-- The decimal that a numeral denotes, without its sign. -/
def decimal (x : Numeral) : Decimal where
  digits := value (x.whole ++ x.fraction.getD [])
  exponent := (x.exponent.elim 0 fun p => if p.1 then -(value p.2 : ℤ) else value p.2) -
    (x.fraction.getD []).length

/-- The value of pieces, by their characters. -/
theorem Spelling.decimal_numeral (negative : Bool) (s : Spelling) :
    (s.numeral negative).decimal =
      ⟨Nat.ofDigitChars 10 (s.whole ++ s.fraction.getD []) 0,
        (s.exponent.elim 0 fun p =>
          if p.1 then -(Nat.ofDigitChars 10 p.2 0 : ℤ) else Nat.ofDigitChars 10 p.2 0) -
          (s.fraction.getD []).length⟩ := by
  obtain ⟨whole, fraction, exponent⟩ := s
  have hdigits : figures whole ++ (fraction.map figures).getD [] =
      figures (whole ++ fraction.getD []) := by
    cases fraction with
    | none => simp
    | some ds => exact List.map_append.symm
  have hlength : ((fraction.map figures).getD []).length = (fraction.getD []).length := by
    cases fraction with
    | none => rfl
    | some ds => exact List.length_map _
  rw [decimal, numeral]
  simp only [hdigits, hlength, value_figures]
  cases exponent with
  | none => rfl
  | some p =>
    simp only [Option.map_some, Option.elim_some, Prod.map_fst, Prod.map_snd, id, value_figures]

end Numeral

open Numeral

/-! ## Integers -/

/-- The pieces of an integer. -/
def Numeral.Spelling.ofNat (n : ℕ) : Spelling := ⟨Nat.toDigits 10 n, none, none⟩

theorem Numeral.Spelling.proper_ofNat (n : ℕ) : (Spelling.ofNat n).Proper where
  whole := isRun_toDigits n
  leading := by
    by_cases hn : n = 0
    · exact .inl (hn ▸ Nat.toDigits_zero 10)
    · exact .inr (head?_toDigits hn)
  fraction := nofun
  exponent := nofun

/-- An integer is written with its sign and its digits. -/
theorem toList_toString (n : ℤ) (rest : List Char) :
    (toString n).toList ++ rest =
      signed (decide (n < 0)) ((Spelling.ofNat n.natAbs).text ++ rest) := by
  have htext : (Spelling.ofNat n.natAbs).text = Nat.toDigits 10 n.natAbs := List.append_nil _
  rw [htext, Int.toString_eq_repr, Int.repr_eq_if]
  by_cases hn : 0 ≤ n
  · have hsize : n.toNat = n.natAbs := by omega
    rw [if_pos hn, Nat.toList_repr, hsize, signed, decide_eq_false (not_lt.2 hn)]
    rfl
  · have hsize : (-n).toNat = n.natAbs := by omega
    rw [if_neg hn, String.toList_append, Nat.toList_repr, hsize, signed,
      decide_eq_true (not_le.1 hn)]
    rfl

/-- The pieces of an integer are read as the integer. -/
theorem integer?_ofNat (n : ℤ) :
    ((Spelling.ofNat n.natAbs).numeral (decide (n < 0))).integer? = some n := by
  have hvalue : value (figures (Nat.toDigits 10 n.natAbs)) = n.natAbs := by
    rw [value_figures, Nat.ofDigitChars_ten_toDigits]
  simp only [integer?, Spelling.ofNat, Spelling.numeral, hvalue, Option.map_none,
    Option.isSome_none, Bool.or_self, Bool.false_eq_true, if_false, decide_eq_true_eq]
  split
  · rw [if_neg (by omega)]
    exact congrArg some (by omega)
  · exact congrArg some (by omega)

/-! ## Decimals -/

namespace Layout

/-- The pieces of a decimal in positional form. -/
def positionalSpelling (ds : List Char) (exponent : ℤ) : Spelling :=
  if 0 ≤ exponent then ⟨ds ++ List.replicate exponent.toNat '0', some ['0'], none⟩
  else if 0 < (ds.length : ℤ) + exponent then
    ⟨ds.take (ds.length + exponent).toNat, some (ds.drop (ds.length + exponent).toNat), none⟩
  else ⟨['0'], some (List.replicate (-(ds.length + exponent)).toNat '0' ++ ds), none⟩

/-- The pieces of a decimal in scientific form. -/
def scientificSpelling (ds : List Char) (exponent : ℤ) : Spelling :=
  ⟨ds.take 1, if ds.length ≤ 1 then none else some (ds.drop 1),
    some (decide (ds.length + exponent - 1 < 0),
      Nat.toDigits 10 (ds.length + exponent - 1).natAbs)⟩

section Forms

variable {ds : List Char} {exponent : ℤ}

theorem isRun_zeros_append (n : ℕ) (hds : IsRun ds) : IsRun (List.replicate n '0' ++ ds) :=
  ⟨by simp [hds.1], fun c hc => (List.mem_append.1 hc).elim
    (fun h => (List.eq_of_mem_replicate h) ▸ rfl) (hds.2 c)⟩

theorem isRun_append_zeros (n : ℕ) (hds : IsRun ds) : IsRun (ds ++ List.replicate n '0') :=
  ⟨by simp [hds.1], fun c hc => (List.mem_append.1 hc).elim (hds.2 c)
    fun h => (List.eq_of_mem_replicate h) ▸ rfl⟩

theorem isRun_take {n : ℕ} (hn : n ≠ 0) (hds : IsRun ds) : IsRun (ds.take n) :=
  ⟨by simp [hn, hds.1], fun c hc => hds.2 c (List.mem_of_mem_take hc)⟩

theorem isRun_drop {n : ℕ} (hn : n < ds.length) (hds : IsRun ds) : IsRun (ds.drop n) :=
  ⟨by simpa using hn, fun c hc => hds.2 c (List.mem_of_mem_drop hc)⟩

/-- Digits that can be written: a run that begins with a zero only if it is one and stands
where it is. -/
structure Writable (ds : List Char) (exponent : ℤ) : Prop where
  run : IsRun ds
  leading : ds.head? ≠ some '0' ∨ ds = ['0'] ∧ exponent = 0

theorem proper_positionalSpelling (hds : Writable ds exponent) :
    (positionalSpelling ds exponent).Proper := by
  obtain ⟨hrun, hlead⟩ := hds
  unfold positionalSpelling
  split
  · refine ⟨isRun_append_zeros _ hrun, ?_, ?_, nofun⟩
    · obtain hlead | ⟨rfl, rfl⟩ := hlead
      · right
        rwa [List.head?_append_of_ne_nil _ hrun.1]
      · exact .inl rfl
    · rintro _ ⟨⟩
      exact isRun_toDigits 0
  · rename_i hneg
    replace hlead := hlead.resolve_right fun h => hneg h.2.ge
    split
    · rename_i hpos
      refine ⟨isRun_take (by omega) hrun, .inr ?_, ?_, nofun⟩
      · rwa [List.head?_take, if_neg (by omega)]
      · rintro _ ⟨⟩
        exact isRun_drop (by omega) hrun
    · refine ⟨isRun_toDigits 0, .inl rfl, ?_, nofun⟩
      rintro _ ⟨⟩
      exact isRun_zeros_append _ hrun

theorem writePositional_json (ds : List Char) (exponent : ℤ) :
    json.writePositional ds exponent = (positionalSpelling ds exponent).text := by
  unfold writePositional positionalSpelling
  by_cases hwhole : 0 ≤ exponent
  · simp [Spelling.text, Spelling.pointed, Spelling.raised, json, hwhole]
  · by_cases hpoint : 0 < (ds.length : ℤ) + exponent <;>
      simp only [Spelling.text, Spelling.pointed, Spelling.raised, hwhole, hpoint, if_true,
        if_false, List.append_nil, List.cons_append, List.nil_append]

theorem integer?_positionalSpelling (negative : Bool) :
    ((positionalSpelling ds exponent).numeral negative).integer? = none := by
  unfold positionalSpelling
  split
  · rfl
  · split <;> rfl

theorem value_positionalSpelling (negative : Bool) :
    ((positionalSpelling ds exponent).numeral negative).decimal.value =
      Nat.ofDigitChars 10 ds 0 * 10 ^ exponent := by
  rw [Spelling.decimal_numeral]
  unfold positionalSpelling
  split
  · rename_i hpos
    obtain ⟨n, rfl⟩ := Int.eq_ofNat_of_zero_le hpos
    simp [Decimal.value, Nat.ofDigitChars_append, Nat.ofDigitChars_cons]
    ring
  · split
    · rename_i hneg hpos
      simp only [Decimal.value, Option.getD_some, List.take_append_drop, Option.elim_none,
        List.length_drop]
      congr 2
      omega
    · rename_i hneg hpos
      have hzeros : Nat.ofDigitChars 10
          (['0'] ++ (List.replicate (-(ds.length + exponent)).toNat '0' ++ ds)) 0 =
          Nat.ofDigitChars 10 ds 0 := by
        simp [Nat.ofDigitChars_append, Nat.ofDigitChars_cons]
      simp only [Decimal.value, Option.getD_some, hzeros, Option.elim_none, List.length_append,
        List.length_replicate]
      congr 2
      omega

theorem proper_scientificSpelling (hrun : IsRun ds) (hlead : ds.head? ≠ some '0') :
    (scientificSpelling ds exponent).Proper where
  whole := isRun_take one_ne_zero hrun
  leading := .inr (by rwa [scientificSpelling, List.head?_take, if_neg one_ne_zero])
  fraction := by
    intro fraction hfraction
    simp only [scientificSpelling] at hfraction
    split at hfraction
    · cases hfraction
    · cases hfraction
      exact isRun_drop (by omega) hrun
  exponent := by
    rintro _ ⟨⟩
    exact isRun_toDigits _

theorem writeScientific_json (ds : List Char) (exponent : ℤ) :
    json.writeScientific ds exponent = (scientificSpelling ds exponent).text := by
  unfold writeScientific scientificSpelling
  by_cases hlength : ds.length ≤ 1
  · have hdrop : ds.drop 1 = [] := List.drop_eq_nil_of_le hlength
    by_cases hsign : (ds.length : ℤ) + exponent - 1 < 0 <;>
      simp [Spelling.text, Spelling.pointed, Spelling.raised, hlength, hdrop, hsign, json]
  · by_cases hsign : (ds.length : ℤ) + exponent - 1 < 0 <;>
      simp [Spelling.text, Spelling.pointed, Spelling.raised, hlength, hsign, json]

theorem integer?_scientificSpelling (negative : Bool) :
    ((scientificSpelling ds exponent).numeral negative).integer? = none := by
  simp [scientificSpelling, Spelling.numeral, integer?]

theorem value_scientificSpelling (negative : Bool) (hrun : IsRun ds) :
    ((scientificSpelling ds exponent).numeral negative).decimal.value =
      Nat.ofDigitChars 10 ds 0 * 10 ^ exponent := by
  have hpos : 0 < ds.length := List.length_pos_iff.2 hrun.1
  have hfraction : (if ds.length ≤ 1 then none else some (ds.drop 1)).getD [] = ds.drop 1 := by
    split
    · exact (List.drop_eq_nil_of_le ‹_›).symm
    · rfl
  rw [Spelling.decimal_numeral, scientificSpelling]
  simp only [hfraction, List.take_append_drop, Option.elim_some, Nat.ofDigitChars_ten_toDigits,
    List.length_drop, decide_eq_true_eq, Decimal.value]
  congr 2
  split <;> omega

end Forms

/-- A decimal is written in pieces, with a point or an exponent, and the pieces denote it. -/
theorem exists_spelling_write {d : Decimal} (hd : d.digits = 0 → d.exponent = 0) :
    ∃ s : Spelling, s.Proper ∧ json.write d = s.text ∧
      ∀ negative, (s.numeral negative).integer? = none ∧
        (s.numeral negative).decimal.value = d.value := by
  have hrun := isRun_toDigits d.digits
  have hvalue :
      (Nat.ofDigitChars 10 (Nat.toDigits 10 d.digits) 0 : ℚ) * 10 ^ d.exponent = d.value := by
    rw [Nat.ofDigitChars_ten_toDigits, Decimal.value]
  by_cases hform : d.digits = 0 ∨ (-5 ≤ ((Nat.toDigits 10 d.digits).length : ℤ) + d.exponent - 1 ∧
      ((Nat.toDigits 10 d.digits).length : ℤ) + d.exponent - 1 < 16)
  · have hwritable : Writable (Nat.toDigits 10 d.digits) d.exponent := by
      refine ⟨hrun, ?_⟩
      by_cases hzero : d.digits = 0
      · exact .inr ⟨hzero ▸ Nat.toDigits_zero 10, hd hzero⟩
      · exact .inl (head?_toDigits hzero)
    refine ⟨_, proper_positionalSpelling hwritable, ?_, fun negative =>
      ⟨integer?_positionalSpelling negative, (value_positionalSpelling negative).trans hvalue⟩⟩
    rw [← writePositional_json]
    exact if_pos hform
  · have hlead := head?_toDigits fun hzero => hform (.inl hzero)
    refine ⟨_, proper_scientificSpelling hrun hlead, ?_, fun negative =>
      ⟨integer?_scientificSpelling negative, (value_scientificSpelling negative hrun).trans hvalue⟩⟩
    rw [← writeScientific_json]
    exact if_neg hform

end Layout

end StateGraph
