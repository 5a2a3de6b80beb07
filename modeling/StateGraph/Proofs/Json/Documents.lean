import Mathlib
import StateGraph.Json.Reader
import StateGraph.Proofs.Json.Numerals

set_option autoImplicit false

/-!
# Documents that are read back

The indented text of a document is read, and what is read stands for that document and for
no other (`Json.isTextOf_pretty`, `Json.isTextOf_iff`).  A document has no number that is
not finite, so every number has a text of its own.

A text is `JsonTree.Spelled` if the reader takes exactly that text from whatever it stands
before.  The parts of a document are spelled one by one: words and strings are closed by
themselves, numerals by what follows them, and arrays and objects by their brackets, with
any blanks between their items.
-/

namespace StateGraph

/-! ## What a tree stands for -/

/-- A numeral that is not an integer denotes a finite number: the one that its decimal
rounds to, with its sign. -/
structure Numeral.Denotes (x : Numeral) (y : Binary64) : Prop where
  fractional : x.integer? = none
  sign : x.negative = y.isNegative
  covers : y.dyadic.Covers x.decimal.value

/-- A tree stands for a document. -/
inductive JsonTree.StandsFor : JsonTree → Json → Prop where
  | null : StandsFor .null .null
  | bool (b : Bool) : StandsFor (.bool b) (.bool b)
  | int {x : Numeral} {n : ℤ} (integer : x.integer? = some n) : StandsFor (.number x) (.int n)
  | float {x : Numeral} {y : Binary64} (denotes : x.Denotes y) : StandsFor (.number x) (.float y)
  | string (s : String) : StandsFor (.string (some s)) (.string s)
  | array {ts : List JsonTree} {items : List Json} (items_for : List.Forall₂ StandsFor ts items) :
      StandsFor (.array ts) (.array items)
  | object {ts : List (Option String × JsonTree)} {members : List (String × Json)}
      (names : ts.map Prod.fst = (members.map Prod.fst).map some)
      (values_for : List.Forall₂ StandsFor (ts.map Prod.snd) (members.map Prod.snd)) :
      StandsFor (.object ts) (.object members)

namespace Json

/-- The numbers of a document are finite. -/
inductive IsFinite : Json → Prop where
  | null : IsFinite .null
  | bool (b : Bool) : IsFinite (.bool b)
  | int (n : ℤ) : IsFinite (.int n)
  | float {x : Binary64} (finite : x.isFinite = true) : IsFinite (.float x)
  | string (s : String) : IsFinite (.string s)
  | array {items : List Json} (items_finite : ∀ j ∈ items, IsFinite j) : IsFinite (.array items)
  | object {members : List (String × Json)} (values_finite : ∀ m ∈ members, IsFinite m.2) :
      IsFinite (.object members)

/-- A text is that of a document: it is read, and what is read stands for the document. -/
def IsTextOf (text : String) (j : Json) : Prop :=
  ∃ t, JsonTree.read? text = some t ∧ t.StandsFor j

end Json

namespace JsonTree

/-! ## Blanks -/

section Blanks

variable {b : List Char}

theorem skipBlanks_append (hb : ∀ c ∈ b, isBlank c = true) (cs : List Char) :
    skipBlanks (b ++ cs) = skipBlanks cs :=
  List.dropWhile_append_of_pos hb

theorem skipBlanks_cons {c : Char} (hc : isBlank c = false) (cs : List Char) :
    skipBlanks (c :: cs) = c :: cs :=
  List.dropWhile_cons_of_neg (by simp [hc])

/-- Blanks before a value are skipped. -/
theorem readValue_blanks (hb : ∀ c ∈ b, isBlank c = true) (fuel : ℕ) (cs : List Char) :
    readValue fuel (b ++ cs) = readValue fuel cs := by
  cases fuel with
  | zero => rfl
  | succ fuel => rw [readValue, readValue, skipBlanks_append hb]

theorem readItems_blanks (hb : ∀ c ∈ b, isBlank c = true) (fuel : ℕ) (cs : List Char) :
    readItems fuel (b ++ cs) = readItems fuel cs := by
  cases fuel with
  | zero => rfl
  | succ fuel => rw [readItems, readItems, readValue_blanks hb]

theorem readMembers_blanks (hb : ∀ c ∈ b, isBlank c = true) (fuel : ℕ) (cs : List Char) :
    readMembers fuel (b ++ cs) = readMembers fuel cs := by
  cases fuel with
  | zero => rfl
  | succ fuel => rw [readMembers, readMembers, skipBlanks_append hb]

theorem ends_of_isBlank {c : Char} (hc : isBlank c = true) :
    c.isDigit = false ∧ c ≠ '.' ∧ c ≠ 'e' ∧ c ≠ 'E' := by
  simp only [isBlank, Bool.or_eq_true, decide_eq_true_eq] at hc
  obtain ((rfl | rfl) | rfl) | rfl := hc <;> decide

/-- Blanks do not go on with a numeral. -/
theorem ends_of_blanks (hb : ∀ c ∈ b, isBlank c = true) : Numeral.Ends b :=
  fun c hc => ends_of_isBlank (hb c (List.mem_of_mem_head? hc))

/-- Nor do a comma and brackets after them. -/
theorem ends_blanks (hb : ∀ c ∈ b, isBlank c = true) {c : Char}
    (hc : c = ',' ∨ c = ']' ∨ c = '\x7d') (cs : List Char) : Numeral.Ends (b ++ c :: cs) := by
  intro d hd
  cases b with
  | nil =>
    cases hd
    obtain rfl | rfl | rfl := hc <;> decide
  | cons e b =>
    cases hd
    exact ends_of_isBlank (hb d List.mem_cons_self)

end Blanks

/-! ## Strings -/

/-- A character behind a backslash, if it has a letter. -/
theorem readUnits_letter {l c : Char} (hletter : unletter? l = some c) (cs : List Char) :
    readUnits ('\\' :: l :: cs) = (readUnits cs).map fun p => (.inr c :: p.1, p.2) := by
  have hhex : l ≠ 'u' := by
    rintro rfl
    cases hletter
  rw [readUnits]
  · rw [hletter]
    cases readUnits cs <;> rfl
  · intro _ _ _ _ _ hu
    exact absurd hu hhex

/-- A control character by its number. -/
theorem readUnits_control {n : ℕ} (hn : n < 32) (cs : List Char) :
    readUnits ('\\' :: 'u' :: '0' :: '0' :: (Json.hexPair n ++ cs)) =
      (readUnits cs).map fun p => (.inl n :: p.1, p.2) := by
  have hquad : ∀ n < 32,
      hexQuad? '0' '0' (Nat.digitChar (n / 16)) (Nat.digitChar (n % 16)) = some n := by decide
  rw [Json.hexPair, List.cons_append, List.cons_append, List.nil_append, readUnits, hquad n hn]
  cases readUnits cs <;> rfl

/-- Any other character by itself. -/
theorem readUnits_plain {c : Char} (hquote : c ≠ '"') (hbackslash : c ≠ '\\') (hc : ¬ c.toNat < 32)
    (cs : List Char) : readUnits (c :: cs) = (readUnits cs).map fun p => (.inr c :: p.1, p.2) := by
  rw [readUnits]
  · rw [if_neg (by simp [hbackslash, hc])]
    cases readUnits cs <;> rfl
  · exact hquote
  · intro _ _ _ _ _ h
    exact absurd h hbackslash
  · intro _ _ h
    exact absurd h hbackslash

theorem decodeUnits_unit {n : ℕ} (hn : n < 0xD800) (us : List (ℕ ⊕ Char)) :
    decodeUnits (.inl n :: us) = (decodeUnits us).map (Char.ofNat n :: ·) := by
  exact (decodeUnits.eq_def _).trans (if_pos (.inl hn))

/-- What stands for a character inside a string is read as one unit. -/
theorem exists_unit (c : Char) : ∃ u,
    (∀ cs, readUnits (Json.character c ++ cs) = (readUnits cs).map fun p => (u :: p.1, p.2)) ∧
      ∀ us, decodeUnits (u :: us) = (decodeUnits us).map (c :: ·) := by
  unfold Json.character
  -- seven characters have letters
  iterate 7
    split
    · subst_vars
      exact ⟨_, readUnits_letter rfl, fun us => rfl⟩
  split
  · rename_i hcontrol
    refine ⟨_, readUnits_control hcontrol, fun us => ?_⟩
    rw [decodeUnits_unit (by omega), Char.ofNat_toNat]
  · rename_i hquote hbackslash _ _ _ _ _ hcontrol
    exact ⟨_, readUnits_plain hquote hbackslash hcontrol, fun us => rfl⟩

/-- A string is read up to the quote that closes it. -/
theorem readString_quoted (cs rest : List Char) :
    readString (cs.flatMap Json.character ++ '"' :: rest) =
      some (some (String.ofList cs), rest) := by
  have hunits : ∃ us, readUnits (cs.flatMap Json.character ++ '"' :: rest) = some (us, rest) ∧
      decodeUnits us = some cs := by
    induction cs with
    | nil => exact ⟨[], rfl, rfl⟩
    | cons c cs ih =>
      obtain ⟨us, hread, hdecode⟩ := ih
      obtain ⟨u, hunit, hchar⟩ := exists_unit c
      refine ⟨u :: us, ?_, ?_⟩
      · rw [List.flatMap_cons, List.append_assoc, hunit, hread]
        rfl
      · rw [hchar, hdecode]
        rfl
  obtain ⟨us, hread, hdecode⟩ := hunits
  simp [readString, hread, hdecode]

theorem toList_quote (s : String) (rest : List Char) :
    (Json.quote s).toList ++ rest = '"' :: (s.toList.flatMap Json.character ++ '"' :: rest) := by
  simp [Json.quote]

/-! ## Values -/

/-- A text that the reader takes as a tree, whatever follows it. -/
structure Spelled (cs : List Char) (t : JsonTree) : Prop where
  head : ∃ c tail, cs = c :: tail ∧ isBlank c = false ∧ c ≠ ']'
  read : ∀ (fuel : ℕ) {rest}, Numeral.Ends rest → 2 * cs.length ≤ fuel →
    readValue fuel (cs ++ rest) = some (t, rest)

/-- A text that is read as a member of an object. -/
def Named (cs : List Char) (t : Option String × JsonTree) : Prop :=
  ∃ name gap value tree, (∀ c ∈ gap, isBlank c = true) ∧ Spelled value tree ∧
    cs = (Json.quote name).toList ++ ':' :: (gap ++ value) ∧ t = (some name, tree)

/-- The fuel for a text that is not empty is not spent. -/
theorem exists_fuel {cs : List Char} {fuel : ℕ} (hcs : cs ≠ []) (hfuel : 2 * cs.length ≤ fuel) :
    ∃ left, fuel = left + 1 ∧ 2 * cs.length ≤ left + 1 := by
  have hlength := List.length_pos_iff.2 hcs
  exact ⟨fuel - 1, by omega, by omega⟩

theorem spelled_null : Spelled "null".toList .null where
  head := ⟨_, _, rfl, by decide, by decide⟩
  read _ _ _ hfuel := by
    obtain ⟨left, rfl, -⟩ := exists_fuel (by decide) hfuel
    rfl

theorem spelled_bool (b : Bool) : Spelled (if b then "true" else "false").toList (.bool b) where
  head := by cases b <;> exact ⟨_, _, rfl, by decide, by decide⟩
  read _ _ _ hfuel := by
    cases b <;>
    · obtain ⟨left, rfl, -⟩ := exists_fuel (by decide) hfuel
      rfl

theorem spelled_string (s : String) : Spelled (Json.quote s).toList (.string (some s)) where
  head := by
    have hquote := toList_quote s []
    rw [List.append_nil] at hquote
    exact ⟨_, _, hquote, by decide, by decide⟩
  read _ _ _ hfuel := by
    have hquote := toList_quote s []
    rw [List.append_nil] at hquote
    obtain ⟨left, rfl, -⟩ := exists_fuel (by rw [hquote]; exact List.cons_ne_nil _ _) hfuel
    rw [toList_quote, readValue, skipBlanks_cons (by decide)]
    simp [readString_quoted]

section Numerals

variable {c : Char}

/-- A minus sign and digits are no other characters. -/
theorem ne_of_starts (hc : c = '-' ∨ c.isDigit = true) {d : Char}
    (hd : ¬ (d = '-' ∨ d.isDigit = true)) : c ≠ d :=
  fun heq => hd (heq ▸ hc)

theorem isBlank_of_starts (hc : c = '-' ∨ c.isDigit = true) : isBlank c = false := by
  simp only [isBlank, Bool.or_eq_false_iff, decide_eq_false_iff_not]
  exact ⟨⟨⟨ne_of_starts hc (by decide), ne_of_starts hc (by decide)⟩,
    ne_of_starts hc (by decide)⟩, ne_of_starts hc (by decide)⟩

/-- A value that begins with a minus sign or with a digit is a numeral. -/
theorem readValue_numeral (hc : c = '-' ∨ c.isDigit = true) (fuel : ℕ) (cs : List Char) :
    readValue (fuel + 1) (c :: cs) =
      (Numeral.read (c :: cs)).map fun p => (.number p.1, p.2) := by
  rw [readValue, skipBlanks_cons (isBlank_of_starts hc)]
  split
  -- the characters that begin other values
  any_goals
    rename_i heq
    cases heq
    exact absurd hc (by decide)
  · cases Numeral.read (c :: cs) <;> rfl

/-- A numeral begins with a minus sign or with a digit. -/
theorem exists_starts (negative : Bool) {s : Numeral.Spelling} (hs : s.Proper) :
    ∃ c tail, Numeral.signed negative s.text = c :: tail ∧ (c = '-' ∨ c.isDigit = true) := by
  cases negative with
  | true => exact ⟨_, _, rfl, .inl rfl⟩
  | false =>
    obtain ⟨c, ds, hc⟩ := List.exists_cons_of_ne_nil hs.whole.1
    have htext : s.text = c :: (ds ++ (Numeral.Spelling.pointed s.fraction ++
        Numeral.Spelling.raised s.exponent)) := by
      rw [Numeral.Spelling.text, hc, List.cons_append]
    exact ⟨c, _, htext, .inr (hs.whole.2 c (hc ▸ List.mem_cons_self))⟩

theorem spelled_numeral (negative : Bool) {s : Numeral.Spelling} (hs : s.Proper) :
    Spelled (Numeral.signed negative s.text) (.number (s.numeral negative)) where
  head := by
    obtain ⟨c, tail, heq, hc⟩ := exists_starts negative hs
    exact ⟨c, tail, heq, isBlank_of_starts hc, ne_of_starts hc (by decide)⟩
  read _ rest hrest hfuel := by
    obtain ⟨c, tail, heq, hc⟩ := exists_starts negative hs
    have hread := Numeral.read_text negative hs hrest
    have hsigned : Numeral.signed negative (s.text ++ rest) = c :: (tail ++ rest) := by
      rw [← List.cons_append, ← heq]
      cases negative <;> rfl
    rw [heq] at hfuel ⊢
    obtain ⟨left, rfl, -⟩ := exists_fuel (List.cons_ne_nil _ _) hfuel
    rw [List.cons_append, readValue_numeral hc, ← hsigned, hread]
    rfl

end Numerals

/-! ## Arrays and objects -/

section Nested

variable {b close : List Char}

/-- Items are read up to the bracket, with a comma and blanks after each but the last. -/
theorem readItems_intercalate (hb : ∀ c ∈ b, isBlank c = true)
    (hclose : ∀ c ∈ close, isBlank c = true) {texts : List (List Char)} {ts : List JsonTree}
    (hspelled : List.Forall₂ Spelled texts ts) (hne : texts ≠ []) (fuel : ℕ)
    (hfuel : 2 * ((',' :: b).intercalate texts).length + 1 ≤ fuel) (rest : List Char) :
    readItems fuel ((',' :: b).intercalate texts ++ (close ++ ']' :: rest)) = some (ts, rest) := by
  induction hspelled generalizing fuel with
  | nil => exact absurd rfl hne
  | @cons cs t texts ts hcs hrest ih =>
    obtain ⟨left, rfl⟩ : ∃ left, fuel = left + 1 := ⟨fuel - 1, by omega⟩
    cases hrest with
    | nil =>
      rw [List.intercalate_singleton] at hfuel ⊢
      rw [readItems, hcs.read left (ends_blanks hclose (.inr (.inl rfl)) rest) (by omega)]
      simp [skipBlanks_append hclose, skipBlanks_cons (c := ']') rfl]
    | @cons cs' t' texts ts hcs' hrest =>
      rw [List.intercalate_cons_cons] at hfuel ⊢
      simp only [List.length_append, List.length_cons] at hfuel
      have hmore := ih (List.cons_ne_nil _ _) left (by omega)
      have hcomma : ∀ cs, Numeral.Ends (',' :: cs) :=
        fun cs => ends_blanks (b := []) (by simp) (.inl rfl) cs
      simp only [List.append_assoc, List.cons_append]
      rw [readItems, hcs.read left (hcomma _) (by omega)]
      simp [skipBlanks_cons (c := ',') rfl, readItems_blanks hb, hmore]

/-- Members are read up to the brace, likewise. -/
theorem readMembers_intercalate (hb : ∀ c ∈ b, isBlank c = true)
    (hclose : ∀ c ∈ close, isBlank c = true) {texts : List (List Char)}
    {ts : List (Option String × JsonTree)} (hspelled : List.Forall₂ Named texts ts)
    (hne : texts ≠ []) (fuel : ℕ)
    (hfuel : 2 * ((',' :: b).intercalate texts).length + 1 ≤ fuel) (rest : List Char) :
    readMembers fuel ((',' :: b).intercalate texts ++ (close ++ '\x7d' :: rest)) =
      some (ts, rest) := by
  induction hspelled generalizing fuel with
  | nil => exact absurd rfl hne
  | @cons cs t texts ts hcs hrest ih =>
    obtain ⟨left, rfl⟩ : ∃ left, fuel = left + 1 := ⟨fuel - 1, by omega⟩
    obtain ⟨name, gap, value, tree, hgap, hvalue, rfl, rfl⟩ := hcs
    cases hrest with
    | nil =>
      rw [List.intercalate_singleton] at hfuel ⊢
      simp only [List.length_append, List.length_cons] at hfuel
      have hread := hvalue.read left (ends_blanks hclose (.inr (.inr rfl)) rest) (by omega)
      rw [List.append_assoc, toList_quote, readMembers, skipBlanks_cons (by decide)]
      simp [readString_quoted, skipBlanks_cons (c := ':') rfl, expect, readValue_blanks hgap, hread,
        skipBlanks_append hclose, skipBlanks_cons (c := '\x7d') rfl]
    | @cons cs' t' texts ts hcs' hrest =>
      rw [List.intercalate_cons_cons] at hfuel ⊢
      simp only [List.length_append, List.length_cons] at hfuel
      have hmore := ih (List.cons_ne_nil _ _) left (by omega)
      have hcomma : ∀ cs, Numeral.Ends (',' :: cs) :=
        fun cs => ends_blanks (b := []) (by simp) (.inl rfl) cs
      have hread := fun cs => hvalue.read left (hcomma cs) (by omega)
      simp only [List.append_assoc, List.cons_append]
      rw [toList_quote, readMembers, skipBlanks_cons (by decide)]
      simp [readString_quoted, skipBlanks_cons (c := ':') rfl, expect, readValue_blanks hgap, hread,
        skipBlanks_cons (c := ',') rfl, readMembers_blanks hb, hmore]

/-- Texts that are joined begin as the first one does. -/
theorem exists_head_intercalate {cs : List Char} (texts : List (List Char)) {P : Char → Prop}
    (hcs : ∃ c tail, cs = c :: tail ∧ P c) :
    ∃ c tail, (',' :: b).intercalate (cs :: texts) = c :: tail ∧ P c := by
  obtain ⟨c, tail, rfl, hc⟩ := hcs
  cases texts with
  | nil =>
    rw [List.intercalate_singleton]
    exact ⟨c, tail, rfl, hc⟩
  | cons cs' texts =>
    rw [List.intercalate_cons_cons]
    exact ⟨c, _, rfl, hc⟩

theorem spelled_array_nil : Spelled ['[', ']'] (.array []) where
  head := ⟨_, _, rfl, by decide, by decide⟩
  read _ _ _ hfuel := by
    obtain ⟨left, rfl, -⟩ := exists_fuel (List.cons_ne_nil _ _) hfuel
    rfl

/-- An array is spelled by its items between brackets. -/
theorem spelled_array (hb : ∀ c ∈ b, isBlank c = true) (hclose : ∀ c ∈ close, isBlank c = true)
    {texts : List (List Char)} {ts : List JsonTree} (hspelled : List.Forall₂ Spelled texts ts)
    (hne : texts ≠ []) :
    Spelled ('[' :: (b ++ ((',' :: b).intercalate texts ++ (close ++ [']'])))) (.array ts) where
  head := ⟨_, _, rfl, by decide, by decide⟩
  read _ rest _ hfuel := by
    obtain ⟨left, rfl, hleft⟩ := exists_fuel (List.cons_ne_nil _ _) hfuel
    simp only [List.length_cons, List.length_append] at hleft
    have hitems := readItems_intercalate hb hclose hspelled hne left (by omega) rest
    obtain ⟨c, tail, hhead, hblank, hbracket⟩ : ∃ c tail, (',' :: b).intercalate texts = c :: tail ∧
        isBlank c = false ∧ c ≠ ']' := by
      cases hspelled with
      | nil => exact absurd rfl hne
      | cons hcs _ => exact exists_head_intercalate _ hcs.head
    simp only [List.cons_append, List.append_assoc, List.nil_append]
    rw [readValue, skipBlanks_cons (by decide)]
    rw [hhead, List.cons_append] at hitems ⊢
    simp only [skipBlanks_append hb, skipBlanks_cons hblank]
    split
    · rename_i heq
      cases heq
      exact absurd rfl hbracket
    · rw [hitems]
      rfl

theorem spelled_object_nil : Spelled ['\x7b', '\x7d'] (.object []) where
  head := ⟨_, _, rfl, by decide, by decide⟩
  read _ _ _ hfuel := by
    obtain ⟨left, rfl, -⟩ := exists_fuel (List.cons_ne_nil _ _) hfuel
    rfl

theorem Named.head {cs : List Char} {t : Option String × JsonTree} (hnamed : Named cs t) :
    ∃ c tail, cs = c :: tail ∧ c = '"' := by
  obtain ⟨name, gap, value, tree, -, -, rfl, -⟩ := hnamed
  exact ⟨_, _, toList_quote _ _, rfl⟩

/-- An object is spelled by its members between braces. -/
theorem spelled_object (hb : ∀ c ∈ b, isBlank c = true) (hclose : ∀ c ∈ close, isBlank c = true)
    {texts : List (List Char)} {ts : List (Option String × JsonTree)}
    (hnamed : List.Forall₂ Named texts ts) (hne : texts ≠ []) :
    Spelled ('\x7b' :: (b ++ ((',' :: b).intercalate texts ++ (close ++ ['\x7d']))))
      (.object ts) where
  head := ⟨_, _, rfl, by decide, by decide⟩
  read _ rest _ hfuel := by
    obtain ⟨left, rfl, hleft⟩ := exists_fuel (List.cons_ne_nil _ _) hfuel
    simp only [List.length_cons, List.length_append] at hleft
    have hmembers := readMembers_intercalate hb hclose hnamed hne left (by omega) rest
    obtain ⟨c, tail, hhead, rfl⟩ :
        ∃ c tail, (',' :: b).intercalate texts = c :: tail ∧ c = '"' := by
      cases hnamed with
      | nil => exact absurd rfl hne
      | cons hcs _ => exact exists_head_intercalate _ hcs.head
    simp only [List.cons_append, List.append_assoc, List.nil_append]
    rw [readValue, skipBlanks_cons (by decide)]
    rw [hhead, List.cons_append] at hmembers ⊢
    simp only [skipBlanks_append hb, skipBlanks_cons (c := '"') rfl]
    split
    · rename_i heq
      cases heq
    · rw [hmembers]
      rfl

end Nested

/-! ## The indented form -/

section Pretty

/-- The blanks of a level. -/
theorem isBlank_lineBreak (level : ℕ) : ∀ c ∈ (Json.lineBreak level).toList, isBlank c = true := by
  intro c hc
  have hblanks : (Json.lineBreak level).toList = '\n' :: List.replicate (2 * level) ' ' := by
    simp [Json.lineBreak]
  rw [hblanks] at hc
  obtain rfl | hc := List.mem_cons.1 hc
  · rfl
  · rw [List.eq_of_mem_replicate hc]
    rfl

theorem prettyItems_eq (level : ℕ) (items : List Json) :
    Json.prettyItems level items = items.map (Json.prettyAt level) := by
  induction items with
  | nil => rfl
  | cons j items ih => rw [Json.prettyItems, ih, List.map_cons]

theorem prettyMembers_eq (level : ℕ) (members : List (String × Json)) :
    Json.prettyMembers level members =
      members.map fun m => Json.quote m.1 ++ ": " ++ Json.prettyAt level m.2 := by
  induction members with
  | nil => rfl
  | cons m members ih => rw [Json.prettyMembers, ih, List.map_cons]

/-- Brackets around lines. -/
theorem toList_enclose (level : ℕ) (left right : String) {items : List String} (hne : items ≠ []) :
    (Json.enclose level left right items).toList =
      left.toList ++ ((Json.lineBreak (level + 1)).toList ++
        ((',' :: (Json.lineBreak (level + 1)).toList).intercalate (items.map String.toList) ++
          ((Json.lineBreak level).toList ++ right.toList))) := by
  rw [Json.enclose, if_neg (by simpa using hne)]
  simp [String.toList_intercalate]

theorem spelled_enclose_array (level : ℕ) {texts : List String} {ts : List JsonTree}
    (hspelled : List.Forall₂ (fun text t => Spelled text.toList t) texts ts) :
    Spelled (Json.enclose level "[" "]" texts).toList (.array ts) := by
  cases texts with
  | nil =>
    have hnone : (Json.enclose level "[" "]" []).toList = ['[', ']'] := by simp [Json.enclose]
    cases hspelled
    exact hnone ▸ spelled_array_nil
  | cons text texts =>
    rw [toList_enclose level _ _ (List.cons_ne_nil _ _)]
    exact spelled_array (isBlank_lineBreak _) (isBlank_lineBreak _)
      (List.forall₂_map_left_iff.2 hspelled) (List.cons_ne_nil _ _)

theorem spelled_enclose_object (level : ℕ) {texts : List String}
    {ts : List (Option String × JsonTree)}
    (hnamed : List.Forall₂ (fun text t => Named text.toList t) texts ts) :
    Spelled (Json.enclose level "\x7b" "\x7d" texts).toList (.object ts) := by
  cases texts with
  | nil =>
    have hnone : (Json.enclose level "\x7b" "\x7d" []).toList = ['\x7b', '\x7d'] := by
      simp [Json.enclose]
    cases hnamed
    exact hnone ▸ spelled_object_nil
  | cons text texts =>
    rw [toList_enclose level _ _ (List.cons_ne_nil _ _)]
    exact spelled_object (isBlank_lineBreak _) (isBlank_lineBreak _)
      (List.forall₂_map_left_iff.2 hnamed) (List.cons_ne_nil _ _)

/-- The tree of a document is the same at every level. -/
def Written (j : Json) (t : JsonTree) : Prop :=
  t.StandsFor j ∧ ∀ level, Spelled (Json.prettyAt level j).toList t

/-- What holds of some tree for each of many holds of as many trees. -/
theorem exists_forall₂ {α β : Type} {R : α → β → Prop} {as : List α} (has : ∀ a ∈ as, ∃ b, R a b) :
    ∃ bs, List.Forall₂ R as bs := by
  induction as with
  | nil => exact ⟨[], .nil⟩
  | cons a as ih =>
    obtain ⟨b, hb⟩ := has a List.mem_cons_self
    obtain ⟨bs, hbs⟩ := ih fun a ha => has a (List.mem_cons_of_mem _ ha)
    exact ⟨b :: bs, .cons hb hbs⟩

theorem exists_written_int (n : ℤ) : ∃ t, Written (.int n) t := by
  refine ⟨_, .int (integer?_ofNat n), fun level => ?_⟩
  have hspelled := spelled_numeral (decide (n < 0)) (Numeral.Spelling.proper_ofNat n.natAbs)
  have htext := toList_toString n []
  rw [List.append_nil, List.append_nil] at htext
  rw [Json.prettyAt, htext]
  exact hspelled

theorem exists_written_float {x : Binary64} (hx : x.isFinite = true) :
    ∃ t, Written (.float x) t := by
  obtain ⟨s, hs, htext, hdenotes⟩ :=
    Layout.exists_spelling_write (d := x.written .toEven) Binary64.exponent_written
  obtain ⟨hfractional, hvalue⟩ := hdenotes x.isNegative
  refine ⟨_, .float ⟨hfractional, rfl, hvalue ▸ x.covers_written .toEven⟩, fun level => ?_⟩
  have hsigned : (x.text .json).toList = Numeral.signed x.isNegative s.text := by
    rw [Binary64.text_of_isFinite .json hx, String.toList_append, String.toList_ofList]
    show _ ++ Layout.json.write (x.written .toEven) = _
    rw [htext]
    cases x.isNegative <;> rfl
  rw [Json.prettyAt, hsigned]
  exact spelled_numeral x.isNegative hs

/-- Every document without infinities and NaN is written as a tree that stands for it. -/
theorem exists_written {j : Json} (hj : j.IsFinite) : ∃ t, Written j t := by
  induction hj with
  | null => exact ⟨.null, .null, fun _ => spelled_null⟩
  | bool b => exact ⟨.bool b, .bool b, fun _ => spelled_bool b⟩
  | int n => exact exists_written_int n
  | float hx => exact exists_written_float hx
  | string s => exact ⟨.string s, .string s, fun _ => spelled_string s⟩
  | @array items _ ih =>
    obtain ⟨ts, hts⟩ := exists_forall₂ ih
    refine ⟨.array ts, .array (List.Forall₂.flip (hts.imp fun _ _ h => h.1)), fun level => ?_⟩
    rw [Json.prettyAt, prettyItems_eq]
    exact spelled_enclose_array level
      (List.forall₂_map_left_iff.2 (hts.imp fun _ _ h => h.2 (level + 1)))
  | @object members _ ih =>
    have hmembers : ∀ m ∈ members,
        ∃ p : Option String × JsonTree, some m.1 = p.1 ∧ Written m.2 p.2 :=
      fun m hm => (ih m hm).elim fun t ht => ⟨(some m.1, t), rfl, ht⟩
    obtain ⟨ts, hts⟩ := exists_forall₂ hmembers
    refine ⟨.object ts, .object ?_ ?_, fun level => ?_⟩
    · rw [List.map_map, ← List.forall₂_eq_eq_eq, List.forall₂_map_left_iff,
        List.forall₂_map_right_iff]
      exact List.Forall₂.flip (hts.imp fun _ _ h => h.1.symm)
    · rw [List.forall₂_map_left_iff, List.forall₂_map_right_iff]
      exact List.Forall₂.flip (hts.imp fun _ _ h => h.2.1)
    · rw [Json.prettyAt, prettyMembers_eq]
      refine spelled_enclose_object level (List.forall₂_map_left_iff.2 (hts.imp fun m p h => ?_))
      refine ⟨m.1, [' '], (Json.prettyAt (level + 1) m.2).toList, p.2, by simp [isBlank],
        h.2.2 (level + 1), ?_, Prod.ext h.1.symm rfl⟩
      simp

end Pretty

end JsonTree

namespace Json

/-- Items are determined by their trees, if each is. -/
theorem items_eq_of_standsFor {items : List Json}
    (hitems : ∀ j ∈ items, ∀ {t : JsonTree} {j' : Json}, t.StandsFor j → t.StandsFor j' → j = j')
    {ts : List JsonTree} {items' : List Json} (hts : List.Forall₂ JsonTree.StandsFor ts items)
    (hts' : List.Forall₂ JsonTree.StandsFor ts items') : items = items' := by
  induction hts generalizing items' with
  | nil =>
    cases hts'
    rfl
  | cons ht hts ih =>
    cases hts' with
    | cons ht' hts' =>
      rw [hitems _ List.mem_cons_self ht ht',
        ih (fun j hj => hitems j (List.mem_cons_of_mem _ hj)) hts']

/-- A document is determined by a tree that stands for it. -/
theorem eq_of_standsFor {j : Json} (hj : j.IsFinite) : ∀ {t : JsonTree} {j' : Json},
    t.StandsFor j → t.StandsFor j' → j = j' := by
  induction hj with
  | null | bool | string =>
    intro t j' ht ht'
    cases ht
    cases ht'
    rfl
  | int n =>
    intro t j' ht ht'
    cases ht with
    | int hn =>
      cases ht' with
      | int hn' => rw [Option.some.inj (hn.symm.trans hn')]
      | float hx => exact absurd (hx.fractional.symm.trans hn) nofun
  | float hx =>
    intro t j' ht ht'
    cases ht with
    | float hx =>
      cases ht' with
      | int hn => exact absurd (hx.fractional.symm.trans hn) nofun
      | float hy =>
        rw [Binary64.eq_of_covers hx.covers hy.covers (hx.sign.symm.trans hy.sign)]
  | array _ ih =>
    intro t j' ht ht'
    cases ht with
    | array hts =>
      cases ht' with
      | array hts' => rw [items_eq_of_standsFor ih hts hts']
  | object _ ih =>
    intro t j' ht ht'
    cases ht with
    | object hnames hvalues =>
      cases ht' with
      | object hnames' hvalues' =>
        have hfst := List.map_injective_iff.2 (Option.some_injective _) (hnames.symm.trans hnames')
        have hsnd := items_eq_of_standsFor (by
          intro j hj
          obtain ⟨m, hm, rfl⟩ := List.mem_map.1 hj
          exact ih m hm) hvalues hvalues'
        rw [List.zip_of_prod hfst hsnd, ← List.zip_of_prod rfl rfl]

/-- The indented text of a document, with any blanks after it, is a text of the document. -/
theorem isTextOf_pretty {j : Json} (hj : j.IsFinite) {tail : String}
    (htail : ∀ c ∈ tail.toList, JsonTree.isBlank c = true) : IsTextOf (j.pretty ++ tail) j := by
  obtain ⟨t, hstands, hspelled⟩ := JsonTree.exists_written hj
  refine ⟨t, ?_, hstands⟩
  have hread := (hspelled 0).read (2 * (j.pretty ++ tail).toList.length + 2)
    (JsonTree.ends_of_blanks htail) (by simp [pretty]; omega)
  have hrest : JsonTree.skipBlanks tail.toList = [] := by
    rw [← List.append_nil tail.toList, JsonTree.skipBlanks_append htail]
    rfl
  have htext : (j.pretty ++ tail).toList = (prettyAt 0 j).toList ++ tail.toList :=
    String.toList_append
  rw [← htext] at hread
  simp only [JsonTree.read?]
  rw [hread]
  simp [hrest]

/-- It is a text of no other document. -/
theorem isTextOf_iff {j : Json} (hj : j.IsFinite) {tail : String}
    (htail : ∀ c ∈ tail.toList, JsonTree.isBlank c = true) (j' : Json) :
    IsTextOf (j.pretty ++ tail) j' ↔ j' = j := by
  constructor
  · rintro ⟨t', hread', hstands'⟩
    obtain ⟨t, hread, hstands⟩ := isTextOf_pretty hj htail
    cases hread.symm.trans hread'
    exact (eq_of_standsFor hj hstands hstands').symm
  · rintro rfl
    exact isTextOf_pretty hj htail

end Json

end StateGraph
