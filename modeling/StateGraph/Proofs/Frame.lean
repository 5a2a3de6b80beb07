import StateGraph.Proofs.Payload

set_option autoImplicit false

/-!
# What a frame lets through

A byte sequence is opened only if its first 42 bytes are those that would be written
in front of the rest (`Frame.Intact`, `Frame.unwrap_eq_ok_iff`).  So the header
follows from the payload: of two sequences that differ in the header only, at most
one is opened, and two that are opened with the same header have payloads with the
same checksum.

The checksum is any function.  That damage to a payload is noticed is a property of
the function and is not claimed; what is proved is that damage is noticed if the
checksum changes (`Snapshot.guarded`).
-/

namespace StateGraph

namespace Frame

/-- The header of a byte sequence is whole, known, and that of its payload. -/
structure Intact (digest : Bytes → Digest) (bs : Bytes) : Prop where
  whole : headerLength ≤ bs.length
  magicBytes : bs.take 8 = magic
  /-- version 1, least significant byte first -/
  versionBytes : (bs.drop 8).take 2 = [1, 0]
  checksumBytes : (bs.drop 10).take 32 = (digest (bs.drop headerLength)).toList

/-! ## Opening a frame -/

/-- Two bytes stand for the version if they are those of the version. -/
theorem toUInt16_numberOf_eq_version_iff {bs : Bytes} (hlength : bs.length = 2) :
    (Format.numberOf bs).toUInt16 = version ↔ bs = [1, 0] := by
  obtain ⟨a, b, rfl⟩ : ∃ a b, bs = [a, b] := by
    match bs, hlength with
    | [a, b], _ => exact ⟨a, b, rfl⟩
  have ha := a.toNat_lt
  have hb := b.toNat_lt
  have hnumber : Format.numberOf [a, b] = a.toNat + 256 * b.toNat := rfl
  rw [← UInt16.toNat_inj, hnumber, Nat.toUInt16, UInt16.toNat_ofNat', Nat.mod_eq_of_lt (by omega)]
  simp only [List.cons.injEq, and_true, ← UInt8.toNat_inj]
  show a.toNat + 256 * b.toNat = 1 ↔ a.toNat = 1 ∧ b.toNat = 0
  omega

/-- A frame is opened if it is intact, and its payload is what follows the header. -/
theorem unwrap_eq_ok_iff (digest : Bytes → Digest) (bs payload : Bytes) :
    unwrap digest bs = .ok payload ↔ Intact digest bs ∧ payload = bs.drop headerLength := by
  unfold unwrap
  by_cases hwhole : bs.length < headerLength
  · rw [if_pos hwhole]
    simp only [reduceCtorEq, false_iff]
    rintro ⟨hintact, -⟩
    exact absurd hintact.whole (Nat.not_le.2 hwhole)
  have hlength : ((bs.drop 8).take 2).length = 2 := by
    simp only [headerLength] at hwhole
    simp only [List.length_take, List.length_drop]
    omega
  rw [if_neg hwhole]
  by_cases hmagic : bs.take 8 = magic
  · rw [if_neg (not_not_intro hmagic)]
    by_cases hversion : (bs.drop 8).take 2 = [1, 0]
    · rw [if_neg (not_not_intro ((toUInt16_numberOf_eq_version_iff hlength).2 hversion))]
      by_cases hchecksum : (digest (bs.drop headerLength)).toList = (bs.drop 10).take 32
      · rw [if_neg (not_not_intro hchecksum), Except.ok.injEq]
        exact ⟨fun heq => ⟨⟨Nat.not_lt.1 hwhole, hmagic, hversion, hchecksum.symm⟩, heq.symm⟩,
          fun h => h.2.symm⟩
      · rw [if_pos hchecksum]
        simp only [reduceCtorEq, false_iff]
        rintro ⟨hintact, -⟩
        exact hchecksum hintact.checksumBytes.symm
    · rw [if_pos fun h => hversion ((toUInt16_numberOf_eq_version_iff hlength).1 h)]
      simp only [reduceCtorEq, false_iff]
      rintro ⟨hintact, -⟩
      exact hversion hintact.versionBytes
  · rw [if_pos hmagic]
    simp only [reduceCtorEq, false_iff]
    rintro ⟨hintact, -⟩
    exact hmagic hintact.magicBytes

/-- A frame that is not opened is reported as damaged, whatever is wrong with it. -/
theorem isCorruption_of_unwrap {digest : Bytes → Digest} {bs : Bytes} {e : SnapshotError}
    (hunwrap : unwrap digest bs = .error e) : e.isCorruption = true := by
  unfold unwrap at hunwrap
  split at hunwrap
  · cases hunwrap
    rfl
  · split at hunwrap
    · cases hunwrap
      rfl
    · simp only at hunwrap
      split at hunwrap
      · cases hunwrap
        rfl
      · split at hunwrap <;> cases hunwrap
        rfl

/-- What is not intact is reported as damaged. -/
theorem exists_unwrap_eq_error {digest : Bytes → Digest} {bs : Bytes}
    (hdamaged : ¬ Intact digest bs) :
    ∃ e, e.isCorruption = true ∧ unwrap digest bs = .error e := by
  cases hunwrap : unwrap digest bs with
  | error e => exact ⟨e, isCorruption_of_unwrap hunwrap, rfl⟩
  | ok payload => exact absurd ((unwrap_eq_ok_iff digest bs payload).1 hunwrap).1 hdamaged

/-! ## Headers and payloads -/

theorem length_header (digest : Bytes → Digest) (payload : Bytes) :
    (magic ++ Format.word16.write version ++ (digest payload).toList).length = headerLength := by
  rw [List.length_append, Vector.length_toList]
  rfl

/-- What is intact is its payload with the header that is written for it. -/
theorem Intact.eq_wrap {digest : Bytes → Digest} {bs : Bytes} (hintact : Intact digest bs) :
    bs = wrap digest (bs.drop headerLength) := by
  have hversion : Format.word16.write version = (bs.drop 8).take 2 := hintact.versionBytes.symm
  have hrest : (bs.drop 8).drop 2 = bs.drop 10 := List.drop_drop
  have hpayload : (bs.drop 10).drop 32 = bs.drop headerLength := List.drop_drop
  rw [wrap, ← hintact.magicBytes, hversion, ← hintact.checksumBytes, List.append_assoc,
    List.append_assoc, ← hpayload, List.take_append_drop, ← hrest, List.take_append_drop,
    List.take_append_drop]

theorem intact_wrap (digest : Bytes → Digest) (payload : Bytes) :
    Intact digest (wrap digest payload) :=
  ((unwrap_eq_ok_iff digest _ payload).1 (unwrap_wrap digest payload)).1

/-- What is intact follows from its payload. -/
theorem Intact.eq_of_drop_eq {digest : Bytes → Digest} {bs bs' : Bytes} (hintact : Intact digest bs)
    (hintact' : Intact digest bs') (hpayload : bs'.drop headerLength = bs.drop headerLength) :
    bs' = bs := by
  rw [hintact'.eq_wrap, hpayload, ← hintact.eq_wrap]

/-- The header holds the checksum of the payload. -/
theorem Intact.digest_eq_of_take_eq {digest : Bytes → Digest} {bs bs' : Bytes}
    (hintact : Intact digest bs) (hintact' : Intact digest bs')
    (hheader : bs'.take headerLength = bs.take headerLength) :
    digest (bs'.drop headerLength) = digest (bs.drop headerLength) := by
  have hchecksum : (bs'.drop 10).take 32 = (bs.drop 10).take 32 := by
    have hboth := congrArg (List.drop 10) hheader
    rwa [List.drop_take, List.drop_take] at hboth
  rw [hintact'.checksumBytes, hintact.checksumBytes] at hchecksum
  exact Vector.toList_inj.1 hchecksum

/-- A prefix of a frame that contains the header is intact only if the shorter payload
has the checksum of the whole one. -/
theorem digest_eq_of_intact_take {digest : Bytes → Digest} {payload : Bytes} {n : Nat}
    (hn : headerLength ≤ n) (hintact : Intact digest ((wrap digest payload).take n)) :
    digest (payload.take (n - headerLength)) = digest payload := by
  have hdrop : (wrap digest payload).drop headerLength = payload :=
    List.drop_left' (length_header digest payload)
  have hheader : ((wrap digest payload).take n).take headerLength =
      (wrap digest payload).take headerLength := by
    rw [List.take_take, Nat.min_eq_left hn]
  have hsame := (intact_wrap digest payload).digest_eq_of_take_eq hintact hheader
  rwa [List.drop_take, hdrop] at hsame

end Frame

/-! ## Decoding -/

namespace Snapshot

/-- Bytes hold a graph if their frame is intact and their payload begins with a
snapshot of a graph. -/
theorem decodeWith_eq_ok_iff (digest : Bytes → Digest) (owner : Identity) (bs : Bytes) (g : Graph) :
    decodeWith digest owner bs = .ok g ↔ Frame.Intact digest bs ∧
      ∃ s rest, Payload.snapshot.read (bs.drop Frame.headerLength) = .ok (s, rest) ∧
        s.toGraph owner = .ok g := by
  unfold decodeWith
  cases hunwrap : Frame.unwrap digest bs with
  | error e =>
    simp only [reduceCtorEq, false_iff]
    rintro ⟨hintact, -⟩
    rw [(Frame.unwrap_eq_ok_iff digest bs _).2 ⟨hintact, rfl⟩] at hunwrap
    cases hunwrap
  | ok payload =>
    obtain ⟨hintact, rfl⟩ := (Frame.unwrap_eq_ok_iff digest bs payload).1 hunwrap
    rw [and_iff_right hintact]
    unfold Payload.read
    cases hread : Payload.snapshot.read (bs.drop Frame.headerLength) with
    | error fault =>
      simp only [hread, reduceCtorEq, false_and, exists_false]
    | ok result =>
      obtain ⟨s, rest⟩ := result
      simp only [hread, Except.ok.injEq, Prod.mk.injEq]
      constructor
      · exact fun hgraph => ⟨s, rest, ⟨rfl, rfl⟩, hgraph⟩
      · rintro ⟨s', rest', ⟨rfl, rfl⟩, hgraph⟩
        exact hgraph

/-- Bytes are reported as damaged by their frame, before their payload is looked at. -/
def Damaged (digest : Bytes → Digest) (bs : Bytes) : Prop :=
  ∃ e, e.isCorruption = true ∧ Frame.unwrap digest bs = .error e ∧
    ∀ owner, decodeWith digest owner bs = .error e

theorem damaged_of_not_intact {digest : Bytes → Digest} {bs : Bytes}
    (hdamaged : ¬ Frame.Intact digest bs) : Damaged digest bs := by
  obtain ⟨e, hcorruption, hunwrap⟩ := Frame.exists_unwrap_eq_error hdamaged
  refine ⟨e, hcorruption, hunwrap, fun owner => ?_⟩
  rw [decodeWith, hunwrap]

/-- What decoding accepts, and which damage it is sure to notice. -/
structure Guarded (digest : Bytes → Digest) : Prop where
  accepts : ∀ owner bs g, decodeWith digest owner bs = .ok g ↔ Frame.Intact digest bs ∧
    ∃ s rest, Payload.snapshot.read (bs.drop Frame.headerLength) = .ok (s, rest) ∧
      s.toGraph owner = .ok g
  refuses : ∀ bs, ¬ Frame.Intact digest bs → Damaged digest bs
  /-- no other header goes with an accepted payload -/
  header : ∀ owner bs bs' g, decodeWith digest owner bs = .ok g → bs'.length = bs.length →
    bs'.drop Frame.headerLength = bs.drop Frame.headerLength → bs' ≠ bs → Damaged digest bs'
  /-- payloads that are accepted with the same header have the same checksum -/
  payload : ∀ owner owner' bs bs' g g', decodeWith digest owner bs = .ok g →
    decodeWith digest owner' bs' = .ok g' →
    bs'.take Frame.headerLength = bs.take Frame.headerLength →
    digest (bs'.drop Frame.headerLength) = digest (bs.drop Frame.headerLength)
  /-- a file that ends within the header -/
  shortened : ∀ g n, n < Frame.headerLength → Damaged digest ((encodeWith digest g).take n)
  /-- a file that ends within the payload -/
  truncated : ∀ g n, Frame.headerLength ≤ n → n < (encodeWith digest g).length →
    digest ((Payload.write (ofGraph g)).take (n - Frame.headerLength)) ≠
      digest (Payload.write (ofGraph g)) → Damaged digest ((encodeWith digest g).take n)

/-- Decoding is guarded by the frame, whatever the checksum is. -/
theorem guarded (digest : Bytes → Digest) : Guarded digest where
  accepts := decodeWith_eq_ok_iff digest
  refuses bs hdamaged := damaged_of_not_intact hdamaged
  header owner bs bs' g hread _ hpayload hne := by
    refine damaged_of_not_intact fun hintact' => hne ?_
    have hintact := ((decodeWith_eq_ok_iff digest owner bs g).1 hread).1
    exact hintact.eq_of_drop_eq hintact' hpayload
  payload owner owner' bs bs' g g' hread hread' hheader := by
    have hintact := ((decodeWith_eq_ok_iff digest owner bs g).1 hread).1
    have hintact' := ((decodeWith_eq_ok_iff digest owner' bs' g').1 hread').1
    exact hintact.digest_eq_of_take_eq hintact' hheader
  shortened g n hn := by
    refine damaged_of_not_intact fun hintact => ?_
    have hwhole := hintact.whole
    have hlength := List.length_take_le n (encodeWith digest g)
    omega
  truncated g n hn _ hchecksum :=
    damaged_of_not_intact fun hintact => hchecksum (Frame.digest_eq_of_intact_take hn hintact)

end Snapshot

end StateGraph
