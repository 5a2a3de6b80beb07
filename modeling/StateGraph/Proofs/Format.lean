import Mathlib.Algebra.GroupWithZero.Nat
import StateGraph.Snapshot.Format

set_option autoImplicit false

/-!
# Formats read what they write

Words and texts are read back from what was written for them, whatever bytes follow,
and every way of combining formats preserves this (`Format.Faithful`).
-/

namespace StateGraph.Format

/-! ## Words -/

theorem length_numberBytes (width n : Nat) : (numberBytes width n).length = width := by
  induction width generalizing n with
  | zero => rfl
  | succ width ih => simp [numberBytes, ih]

theorem numberOf_numberBytes (width n : Nat) :
    numberOf (numberBytes width n) = n % 256 ^ width := by
  induction width generalizing n with
  | zero => simp [numberBytes, numberOf, Nat.mod_one]
  | succ width ih =>
    have h : ((n % 256).toUInt8).toNat = n % 256 := by
      simp [UInt8.toNat_ofNat']
    rw [numberBytes, numberOf, h, ih, Nat.pow_succ, Nat.mul_comm (256 ^ width) 256, Nat.mod_mul]

theorem takeBytes_append (b rest : Bytes) : takeBytes b.length (b ++ rest) = .ok (b, rest) := by
  simp [takeBytes]

theorem readNumber_append (width n : Nat) (rest : Bytes) (h : n < 256 ^ width) :
    readNumber width (numberBytes width n ++ rest) = .ok (n, rest) := by
  have := takeBytes_append (numberBytes width n) rest
  rw [length_numberBytes] at this
  rw [readNumber, this]
  simp [numberOf_numberBytes, Nat.mod_eq_of_lt h]

theorem faithful_word32 (w : UInt32) : word32.Faithful w := by
  intro rest
  simp only [word32, readNumber_append 4 w.toNat rest w.toNat_lt]
  simp

theorem faithful_word64 (w : UInt64) : word64.Faithful w := by
  intro rest
  simp only [word64, readNumber_append 8 w.toNat rest w.toNat_lt]
  simp

/-! ## Combinations -/

theorem Faithful.map {α β : Type} {f : Format α} {make : α → β} {back : β → α} {b : β}
    (h : f.Faithful (back b)) (hb : make (back b) = b) : (f.map make back).Faithful b := by
  intro rest
  simp [Format.map, h rest, hb]

theorem Faithful.pair {α β : Type} {f : Format α} {g : Format β} {a : α} {b : β}
    (ha : f.Faithful a) (hb : g.Faithful b) : (f.pair g).Faithful (a, b) := by
  intro rest
  simp only [Format.pair, List.append_assoc, ha (g.write b ++ rest), hb rest]

theorem readMany_flatMap {α : Type} {f : Format α} {as : List α} (h : ∀ a ∈ as, f.Faithful a)
    (rest : Bytes) : readMany f.read as.length (as.flatMap f.write ++ rest) = .ok (as, rest) := by
  induction as with
  | nil => rfl
  | cons a as ih =>
    simp only [List.flatMap_cons, List.append_assoc, List.length_cons, readMany,
      h a (by simp) (as.flatMap f.write ++ rest), ih fun b hb => h b (by simp [hb])]

theorem Faithful.list {α : Type} {f : Format α} {as : List α} (h : ∀ a ∈ as, f.Faithful a)
    (hlen : as.length < 2 ^ 64) : f.list.Faithful as := by
  intro rest
  simp only [Format.list, readList, List.append_assoc,
    readNumber_append 8 as.length _ (by simpa using hlen)]
  exact readMany_flatMap h rest

/-! ## Texts -/

theorem ofUtf8?_utf8 (s : String) : ofUtf8? (utf8 s) = some s := by
  have h : (⟨(utf8 s).toArray⟩ : ByteArray) = s.toUTF8 := rfl
  rw [ofUtf8?, h, String.fromUTF8?]
  exact dif_pos s.isValidUTF8

theorem faithful_text {s : String} (h : (utf8 s).length < 2 ^ 64) : text.Faithful s := by
  intro rest
  simp only [text, List.append_assoc,
    readNumber_append 8 (utf8 s).length _ (by simpa using h), takeBytes_append, ofUtf8?_utf8]

end StateGraph.Format
