import Mathlib.Data.List.Infix
import StateGraph.Proofs.Format

set_option autoImplicit false

/-!
# Formats show where an element ends

A reader stops at the first fault, and it looks at no byte behind the element that it
reads.  So with more bytes it gives the same answer, unless its answer was that the bytes
had ended (`Format.Steady`).  A format that is steady and faithful is self-delimiting:
of what was written, every shorter piece ends early (`Format.Steady.read_of_prefix`).

The other way round, what is read says which bytes it was read from (`Format.Frugal`): at
least as many as are written for it, and exactly these if there is one way to write it.
-/

namespace StateGraph

namespace Format

variable {α β : Type}

/-! ## Readers as chains -/

/-- Reads nothing. -/
def done (a : α) : Reader α := fun bs => .ok (a, bs)

/-- Reads an element and goes on with what depends on it. -/
def andThen (r : Reader α) (next : α → Reader β) : Reader β := fun bs =>
  match r bs with
  | .error e => .error e
  | .ok (a, rest) => next a rest

theorem andThen_eq_ok_iff {r : Reader α} {next : α → Reader β} {bs rest : Bytes} {b : β} :
    andThen r next bs = .ok (b, rest) ↔
      ∃ a mid, r bs = .ok (a, mid) ∧ next a mid = .ok (b, rest) := by
  unfold andThen
  cases r bs with
  | error e => simp
  | ok result =>
    obtain ⟨a, mid⟩ := result
    simp

/-- A reader that is written out as a chain is the chain. -/
theorem eq_andThen {r : Reader α} {next : α → Reader β} {s : Reader β}
    (herror : ∀ bs e, r bs = .error e → s bs = .error e)
    (hok : ∀ bs a rest, r bs = .ok (a, rest) → s bs = next a rest) : s = andThen r next := by
  funext bs
  unfold andThen
  cases hr : r bs with
  | error e => exact herror bs e hr
  | ok result => exact hok bs result.1 result.2 hr

theorem readNumber_eq (width : Nat) :
    readNumber width = andThen (takeBytes width) fun b => done (numberOf b) :=
  eq_andThen (fun bs e h => by simp [readNumber, h])
    (fun bs b rest h => by simp [readNumber, h, done])

theorem word32_read : word32.read = andThen (readNumber 4) fun n => done n.toUInt32 :=
  eq_andThen (fun bs e h => by simp [word32, h]) (fun bs n rest h => by simp [word32, h, done])

theorem word64_read : word64.read = andThen (readNumber 8) fun n => done n.toUInt64 :=
  eq_andThen (fun bs e h => by simp [word64, h]) (fun bs n rest h => by simp [word64, h, done])

theorem map_read (f : Format α) (make : α → β) (back : β → α) :
    (f.map make back).read = andThen f.read fun a => done (make a) :=
  eq_andThen (fun bs e h => by simp [map, h]) (fun bs a rest h => by simp [map, h, done])

theorem pair_read (f : Format α) (g : Format β) :
    (f.pair g).read = andThen f.read fun a => andThen g.read fun b => done (a, b) := by
  refine eq_andThen (fun bs e h => by simp [pair, h]) fun bs a rest h => ?_
  simp only [pair, h]
  cases hg : g.read rest <;> simp [andThen, hg, done]

theorem readMany_succ (r : Reader α) (n : Nat) :
    readMany r (n + 1) = andThen r fun a => andThen (readMany r n) fun as => done (a :: as) := by
  refine eq_andThen (fun bs e h => by simp [readMany, h]) fun bs a rest h => ?_
  simp only [readMany, h]
  cases hmany : readMany r n rest <;> simp [andThen, hmany, done]

theorem readList_eq (r : Reader α) : readList r = andThen (readNumber 8) fun n => readMany r n :=
  eq_andThen (fun bs e h => by simp [readList, h]) (fun bs n rest h => by simp [readList, h])

/-- The text that bytes encode, which are read already. -/
def textOf (b : Bytes) : Reader String :=
  match ofUtf8? b with
  | some s => done s
  | none => fun _ => .error (.notUtf8 ((Utf8.fault? b).getD ⟨0, none⟩))

theorem text_read : text.read = andThen (readNumber 8) fun n => andThen (takeBytes n) textOf := by
  refine eq_andThen (fun bs e h => by simp [text, h]) fun bs n rest h => ?_
  simp only [text, h]
  cases htake : takeBytes n rest with
  | error e => simp [andThen, htake]
  | ok result =>
    simp only [andThen, htake, textOf]
    cases ofUtf8? result.1 <;> rfl

/-! ## Readers that are given more bytes -/

/-- With more bytes `r'` gives the answer of `r`, unless `r` ran out of bytes. -/
def Continues (r r' : Reader α) : Prop :=
  ∀ bs more, match r bs with
    | .ok (a, rest) => r' (bs ++ more) = .ok (a, rest ++ more)
    | .error fault => fault = .ended ∨ r' (bs ++ more) = .error fault

theorem continues_done (a : α) : Continues (done a) (done a) := fun _ _ => rfl

theorem continues_fail (fault : PayloadFault) :
    Continues (fun _ => .error fault : Reader α) (fun _ => .error fault) :=
  fun _ _ => .inr rfl

/-- A chain gives the same answer with more bytes if its parts do. -/
theorem Continues.andThen {r r' : Reader α} {next next' : α → Reader β} (hfirst : Continues r r')
    (hnext : ∀ a, Continues (next a) (next' a)) :
    Continues (Format.andThen r next) (Format.andThen r' next') := by
  intro bs more
  have hfirst := hfirst bs more
  unfold Format.andThen
  cases hr : r bs with
  | error fault =>
    simp only [hr] at hfirst ⊢
    rcases hfirst with hended | hsame
    · exact .inl hended
    · rw [hsame]
      exact .inr rfl
  | ok result =>
    obtain ⟨a, rest⟩ := result
    simp only [hr] at hfirst ⊢
    rw [hfirst]
    exact hnext a rest more

theorem continues_takeBytes (n : Nat) : Continues (takeBytes n) (takeBytes n) := by
  intro bs more
  unfold takeBytes
  by_cases hlength : (bs.take n).length = n
  · have hn : n ≤ bs.length := by
      rw [List.length_take] at hlength
      omega
    simp only [hlength, if_true]
    rw [List.take_append_of_le_length hn, List.drop_append_of_le_length hn, if_pos hlength]
  · simp only [hlength, if_false]
    exact .inl trivial

theorem continues_readNumber (width : Nat) : Continues (readNumber width) (readNumber width) := by
  rw [readNumber_eq]
  exact (continues_takeBytes width).andThen fun b => continues_done (numberOf b)

theorem Continues.readMany {r r' : Reader α} (hr : Continues r r') (n : Nat) :
    Continues (Format.readMany r n) (Format.readMany r' n) := by
  induction n with
  | zero => exact continues_done []
  | succ n ih =>
    rw [readMany_succ, readMany_succ]
    exact hr.andThen fun a => ih.andThen fun as => continues_done (a :: as)

theorem Continues.readList {r r' : Reader α} (hr : Continues r r') :
    Continues (Format.readList r) (Format.readList r') := by
  rw [readList_eq, readList_eq]
  exact (continues_readNumber 8).andThen fun n => hr.readMany n

/-! ## Steady formats -/

/-- More bytes change an answer only if the bytes had ended. -/
def Steady (f : Format α) : Prop := Continues f.read f.read

theorem steady_word32 : word32.Steady := by
  rw [Steady, word32_read]
  exact (continues_readNumber 4).andThen fun n => continues_done n.toUInt32

theorem steady_word64 : word64.Steady := by
  rw [Steady, word64_read]
  exact (continues_readNumber 8).andThen fun n => continues_done n.toUInt64

theorem steady_boolean : boolean.Steady := by
  intro bs more
  cases bs with
  | nil => exact .inl rfl
  | cons b bs =>
    simp only [boolean, List.cons_append]
    by_cases hfalse : b = 0
    · simp [hfalse]
    · by_cases htrue : b = 1 <;> simp [hfalse, htrue]

theorem Steady.map {f : Format α} (hf : f.Steady) (make : α → β) (back : β → α) :
    (f.map make back).Steady := by
  rw [Steady, map_read]
  exact Continues.andThen hf fun a => continues_done (make a)

theorem Steady.pair {f : Format α} {g : Format β} (hf : f.Steady) (hg : g.Steady) :
    (f.pair g).Steady := by
  rw [Steady, pair_read]
  exact Continues.andThen hf fun a => Continues.andThen hg fun b => continues_done (a, b)

theorem Steady.list {f : Format α} (hf : f.Steady) : f.list.Steady := Continues.readList hf

theorem steady_text : text.Steady := by
  rw [Steady, text_read]
  refine (continues_readNumber 8).andThen fun n => (continues_takeBytes n).andThen fun b => ?_
  unfold textOf
  cases ofUtf8? b with
  | some s => exact continues_done s
  | none => exact continues_fail _

/-- What was written cannot be taken for something else before its end. -/
theorem Steady.read_of_prefix {f : Format α} (hsteady : f.Steady) {a : α} (hfaithful : f.Faithful a)
    {front : Bytes} (hbegins : front <+: f.write a) (hshort : front ≠ f.write a) :
    f.read front = .error .ended := by
  obtain ⟨more, hwhole⟩ := hbegins
  have hread : f.read (front ++ more) = .ok (a, []) := by
    simpa only [hwhole, List.append_nil] using hfaithful []
  have hcontinues := hsteady front more
  cases hfront : f.read front with
  | ok result =>
    obtain ⟨b, rest⟩ := result
    simp only [hfront, hread, Except.ok.injEq, Prod.mk.injEq] at hcontinues
    have hmore : more = [] := (List.append_eq_nil_iff.1 hcontinues.2.symm).2
    rw [hmore, List.append_nil] at hwhole
    exact absurd hwhole hshort
  | error fault =>
    simp only [hfront, hread, reduceCtorEq, or_false] at hcontinues
    rw [hcontinues]

/-! ## What is read says what it was read from -/

/-- What is read `fits`, and stands at the front of the bytes: in no fewer bytes than are
written for it, and if it is `plain`, as it is written. -/
def Frugal (f : Format α) (fits plain : α → Prop) : Prop :=
  ∀ bs a rest, f.read bs = .ok (a, rest) →
    fits a ∧ ∃ front, bs = front ++ rest ∧ (f.write a).length ≤ front.length ∧
      (plain a → front = f.write a)

/-- An element of a format that leaves no choice. -/
theorem frugal_of_eq {f : Format α} {fits plain : α → Prop}
    (hread : ∀ bs a rest, f.read bs = .ok (a, rest) → fits a ∧ bs = f.write a ++ rest) :
    f.Frugal fits plain := by
  intro bs a rest hbs
  obtain ⟨hfits, heq⟩ := hread bs a rest hbs
  exact ⟨hfits, f.write a, heq, Nat.le_refl _, fun _ => rfl⟩

theorem takeBytes_eq_ok {n : Nat} {bs b rest : Bytes} (htake : takeBytes n bs = .ok (b, rest)) :
    b.length = n ∧ bs = b ++ rest := by
  unfold takeBytes at htake
  simp only at htake
  split at htake
  · rename_i hlength
    cases htake
    exact ⟨hlength, (List.take_append_drop n bs).symm⟩
  · cases htake

theorem numberOf_lt (bs : Bytes) : numberOf bs < 256 ^ bs.length := by
  induction bs with
  | nil => decide
  | cons b bs ih =>
    have hb := b.toNat_lt
    rw [numberOf, List.length_cons, Nat.pow_succ]
    omega

/-- Bytes are those of the number that they stand for. -/
theorem numberBytes_numberOf (bs : Bytes) : numberBytes bs.length (numberOf bs) = bs := by
  induction bs with
  | nil => rfl
  | cons b bs ih =>
    have hb := b.toNat_lt
    have hlow : (b.toNat + 256 * numberOf bs) % 256 = b.toNat := by omega
    have hhigh : (b.toNat + 256 * numberOf bs) / 256 = numberOf bs := by omega
    rw [List.length_cons, numberOf, numberBytes, hlow, hhigh, ih, Nat.toUInt8, UInt8.ofNat_toNat]

theorem readNumber_eq_ok {width n : Nat} {bs rest : Bytes}
    (hread : readNumber width bs = .ok (n, rest)) :
    n < 256 ^ width ∧ bs = numberBytes width n ++ rest := by
  rw [readNumber_eq] at hread
  obtain ⟨b, mid, htake, hdone⟩ := andThen_eq_ok_iff.1 hread
  cases hdone
  obtain ⟨rfl, rfl⟩ := takeBytes_eq_ok htake
  exact ⟨numberOf_lt b, by rw [numberBytes_numberOf]⟩

theorem readLength_eq_ok {n : Nat} {bs rest : Bytes} (hread : readNumber 8 bs = .ok (n, rest)) :
    n < 2 ^ 64 ∧ bs = numberBytes 8 n ++ rest :=
  readNumber_eq_ok hread

theorem frugal_word32 : word32.Frugal (fun _ => True) fun _ => True := by
  refine frugal_of_eq fun bs w rest hread => ⟨trivial, ?_⟩
  rw [word32_read] at hread
  obtain ⟨n, mid, hnumber, hdone⟩ := andThen_eq_ok_iff.1 hread
  cases hdone
  obtain ⟨hn, rfl⟩ := readNumber_eq_ok hnumber
  have hsame : n.toUInt32.toNat = n := UInt32.toNat_ofNat_of_lt' hn
  rw [show word32.write n.toUInt32 = numberBytes 4 n.toUInt32.toNat from rfl, hsame]

theorem frugal_word64 : word64.Frugal (fun _ => True) fun _ => True := by
  refine frugal_of_eq fun bs w rest hread => ⟨trivial, ?_⟩
  rw [word64_read] at hread
  obtain ⟨n, mid, hnumber, hdone⟩ := andThen_eq_ok_iff.1 hread
  cases hdone
  obtain ⟨hn, rfl⟩ := readNumber_eq_ok hnumber
  have hsame : n.toUInt64.toNat = n := UInt64.toNat_ofNat_of_lt' hn
  rw [show word64.write n.toUInt64 = numberBytes 8 n.toUInt64.toNat from rfl, hsame]

theorem frugal_boolean : boolean.Frugal (fun _ => True) fun _ => True := by
  refine frugal_of_eq fun bs a rest hread => ⟨trivial, ?_⟩
  cases bs with
  | nil => cases hread
  | cons b bs =>
    simp only [boolean] at hread
    split at hread
    · rename_i hb
      cases hread
      rw [hb]
      rfl
    · split at hread
      · rename_i hb
        cases hread
        rw [hb]
        rfl
      · cases hread

theorem utf8_of_ofUtf8? {b : Bytes} {s : String} (hs : ofUtf8? b = some s) : utf8 s = b := by
  unfold ofUtf8? String.fromUTF8? at hs
  split at hs
  · cases hs
    rfl
  · cases hs

theorem frugal_text : text.Frugal (fun s => (utf8 s).length < 2 ^ 64) fun _ => True := by
  refine frugal_of_eq fun bs s rest hread => ?_
  rw [text_read] at hread
  obtain ⟨n, mid, hnumber, hrest⟩ := andThen_eq_ok_iff.1 hread
  obtain ⟨b, mid', htake, htext⟩ := andThen_eq_ok_iff.1 hrest
  obtain ⟨hn, rfl⟩ := readLength_eq_ok hnumber
  obtain ⟨rfl, rfl⟩ := takeBytes_eq_ok htake
  unfold textOf at htext
  cases hs : ofUtf8? b with
  | none => simp [hs] at htext
  | some t =>
    rw [hs] at htext
    cases htext
    rw [← utf8_of_ofUtf8? hs] at hn ⊢
    exact ⟨hn, (List.append_assoc _ _ _).symm⟩

/-! ## Combinations -/

theorem Frugal.mono {f : Format α} {fits fits' plain plain' : α → Prop} (hf : f.Frugal fits plain)
    (hfits : ∀ a, fits a → fits' a) (hplain : ∀ a, plain' a → plain a) : f.Frugal fits' plain' := by
  intro bs a rest hread
  obtain ⟨ha, front, hfront, hlength, heq⟩ := hf bs a rest hread
  exact ⟨hfits a ha, front, hfront, hlength, fun h => heq (hplain a h)⟩

theorem Frugal.map {f : Format α} {fits plain : α → Prop} (hf : f.Frugal fits plain) (make : α → β)
    (back : β → α) (hback : ∀ a, back (make a) = a) :
    (f.map make back).Frugal (fun b => fits (back b)) fun b => plain (back b) := by
  intro bs b rest hread
  rw [map_read] at hread
  obtain ⟨a, mid, ha, hdone⟩ := andThen_eq_ok_iff.1 hread
  cases hdone
  simp only [show (f.map make back).write (make a) = f.write (back (make a)) from rfl, hback]
  exact hf bs a rest ha

theorem Frugal.pair {f : Format α} {g : Format β} {fits plain : α → Prop} {fits' plain' : β → Prop}
    (hf : f.Frugal fits plain) (hg : g.Frugal fits' plain') :
    (f.pair g).Frugal (fun p => fits p.1 ∧ fits' p.2) fun p => plain p.1 ∧ plain' p.2 := by
  intro bs p rest hread
  rw [pair_read] at hread
  obtain ⟨a, mid, ha, hread⟩ := andThen_eq_ok_iff.1 hread
  obtain ⟨b, mid', hb, hdone⟩ := andThen_eq_ok_iff.1 hread
  cases hdone
  obtain ⟨hfits, front, rfl, hlength, heq⟩ := hf bs a mid ha
  obtain ⟨hfits', front', rfl, hlength', heq'⟩ := hg mid b rest hb
  refine ⟨⟨hfits, hfits'⟩, front ++ front', (List.append_assoc _ _ _).symm, ?_, fun hplain => ?_⟩
  · simp only [Format.pair, List.length_append]
    omega
  · rw [heq hplain.1, heq' hplain.2]
    rfl

theorem Frugal.readMany {f : Format α} {fits plain : α → Prop} (hf : f.Frugal fits plain) (n : Nat)
    {bs rest : Bytes} {as : List α} (hread : Format.readMany f.read n bs = .ok (as, rest)) :
    as.length = n ∧ (∀ a ∈ as, fits a) ∧ ∃ front, bs = front ++ rest ∧
      (as.flatMap f.write).length ≤ front.length ∧
      ((∀ a ∈ as, plain a) → front = as.flatMap f.write) := by
  induction n generalizing bs as with
  | zero =>
    cases hread
    exact ⟨rfl, fun a ha => absurd ha List.not_mem_nil, [], rfl, Nat.le_refl _, fun _ => rfl⟩
  | succ n ih =>
    rw [readMany_succ] at hread
    obtain ⟨a, mid, ha, hread⟩ := andThen_eq_ok_iff.1 hread
    obtain ⟨more, mid', hmany, hdone⟩ := andThen_eq_ok_iff.1 hread
    cases hdone
    obtain ⟨hfits, front, rfl, hlength, heq⟩ := hf bs a mid ha
    obtain ⟨hcount, hfits', front', rfl, hlength', heq'⟩ := ih hmany
    refine ⟨congrArg (· + 1) hcount, List.forall_mem_cons.2 ⟨hfits, hfits'⟩, front ++ front',
      (List.append_assoc _ _ _).symm, ?_, fun hplain => ?_⟩
    · rw [List.flatMap_cons, List.length_append, List.length_append]
      omega
    · obtain ⟨hplain, hplain'⟩ := List.forall_mem_cons.1 hplain
      rw [heq hplain, heq' hplain', List.flatMap_cons]

theorem Frugal.list {f : Format α} {fits plain : α → Prop} (hf : f.Frugal fits plain) :
    f.list.Frugal (fun as => as.length < 2 ^ 64 ∧ ∀ a ∈ as, fits a)
      fun as => ∀ a ∈ as, plain a := by
  intro bs as rest hread
  rw [show f.list.read = readList f.read from rfl, readList_eq] at hread
  obtain ⟨n, mid, hnumber, hmany⟩ := andThen_eq_ok_iff.1 hread
  obtain ⟨hn, rfl⟩ := readLength_eq_ok hnumber
  obtain ⟨rfl, hfits, front, rfl, hlength, heq⟩ := hf.readMany n hmany
  refine ⟨⟨hn, hfits⟩, numberBytes 8 as.length ++ front,
    (List.append_assoc _ _ _).symm, ?_, fun hplain => ?_⟩
  · simp only [Format.list, List.length_append]
    omega
  · rw [heq hplain]
    rfl

end Format

end StateGraph
