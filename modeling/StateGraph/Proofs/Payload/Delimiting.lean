import Mathlib.Data.List.Flatten
import Mathlib.Data.List.Perm.Subperm
import StateGraph.Proofs.Format.Delimiting
import StateGraph.Proofs.Payload

set_option autoImplicit false

/-!
# Payloads are self-delimiting

A snapshot is read back from its bytes whatever follows them, and no shorter piece of its
bytes is taken for anything: the reader reports that the bytes ended.  Bytes that are read
as a snapshot hold at least as many bytes as are written for it, and begin with these if
no value in it is a label set with labels.  Labels are the one thing that can be written
in several ways, since they are put in order when they are read (`Payload.delimiting`).

Values nest, and the reader of a value is given a bound on the depth that depends on the
number of bytes.  That a higher bound gives the same answers is the same statement as that
more bytes do, so both are proved in one induction (`Payload.continues_readWithin`).
-/

namespace StateGraph

/-! ## Values without labels -/

namespace Value

mutual

/-- Every label set in a value is empty. -/
def Unlabelled : Value → Prop
  | .list items => UnlabelledAll items
  | .labels set => set.toList = []
  | _ => True

/-- The same for each value of a list. -/
def UnlabelledAll : List Value → Prop
  | [] => True
  | v :: rest => Unlabelled v ∧ UnlabelledAll rest

end

theorem sizedAll_iff (items : List Value) : SizedAll items ↔ ∀ v ∈ items, v.Sized := by
  induction items with
  | nil => simp [SizedAll]
  | cons v items ih => rw [SizedAll, ih, List.forall_mem_cons]

theorem unlabelledAll_iff (items : List Value) :
    UnlabelledAll items ↔ ∀ v ∈ items, v.Unlabelled := by
  induction items with
  | nil => simp [UnlabelledAll]
  | cons v items ih => rw [UnlabelledAll, ih, List.forall_mem_cons]

end Value

/-- Every label set in a stored property is empty. -/
def StoredProperty.Unlabelled {ε : Type} (p : StoredProperty ε) : Prop :=
  p.default.Unlabelled ∧ ∀ entry ∈ p.values, entry.2.Unlabelled

/-- Every label set in a snapshot is empty. -/
structure Snapshot.Unlabelled (s : Snapshot) : Prop where
  nodeProperties : ∀ p ∈ s.nodeProperties, p.Unlabelled
  edgeProperties : ∀ p ∈ s.edgeProperties, p.Unlabelled
  attributes : ∀ entry ∈ s.attributes, entry.2.Unlabelled

/-! ## Label sets of lists -/

namespace LabelSet

theorem mem_foldl_insert (l : List String) (s : LabelSet) (a : String) :
    a ∈ (l.foldl insert s).labels ↔ a ∈ s.labels ∨ a ∈ l := by
  induction l generalizing s with
  | nil => simp
  | cons b l ih =>
    rw [List.foldl_cons, ih, mem_insert, List.mem_cons, or_comm (a := a = b), or_assoc]

theorem mem_ofList (l : List String) (a : String) : a ∈ (ofList l).toList ↔ a ∈ l := by
  rw [ofList, toList, mem_foldl_insert]
  simp [empty]

/-- A set holds no text more often than the list that it is made of. -/
theorem subperm_ofList (l : List String) : (ofList l).toList.Subperm l := by
  have hnodup : (ofList l).toList.Nodup := by
    refine (ofList l).increasing.imp ?_
    rintro a b hlt rfl
    exact String.lt_irrefl a hlt
  exact hnodup.subperm fun a ha => (mem_ofList l a).1 ha

end LabelSet

namespace Payload

open Format

/-! ## More bytes -/

theorem steady_node : node.Steady := steady_word32.map _ _

theorem steady_edge : edge.Steady := (steady_node.pair (steady_node.pair steady_word32)).map _ _

theorem steady_binary64 : binary64.Steady := steady_word64.map _ _

theorem steady_integer : integer.Steady := steady_word64.map _ _

theorem steady_labels : labels.Steady := steady_text.list.map _ _

theorem readAs_eq {α : Type} (r : Reader α) (make : α → Value) :
    readAs r make = andThen r fun a => done (make a) :=
  eq_andThen (fun bs e h => by simp [readAs, h]) (fun bs a rest h => by simp [readAs, h, done])

/-- Reads the content of a value of the given kind. -/
def contentOf (inner : Reader Value) (tag : UInt32) : Reader Value :=
  if tag = 0 then done .null
  else if tag = 1 then readAs Format.boolean.read .bool
  else if tag = 2 then readAs integer.read .int
  else if tag = 3 then readAs binary64.read .float
  else if tag = 4 then readAs Format.text.read .text
  else if tag = 5 then readAs (Format.readList inner) .list
  else if tag = 6 then readAs labels.read .labels
  else fun _ => .error (.unknownTag tag)

theorem readWith_eq (inner : Reader Value) :
    readWith inner = andThen Format.word32.read (contentOf inner) := by
  refine eq_andThen (fun bs e h => by simp [readWith, h]) fun bs tag rest h => ?_
  simp only [readWith, h, contentOf]
  repeat' split
  all_goals rfl

theorem Continues.readAs {α : Type} {r r' : Reader α} (hr : Continues r r') (make : α → Value) :
    Continues (Payload.readAs r make) (Payload.readAs r' make) := by
  rw [readAs_eq, readAs_eq]
  exact hr.andThen fun a => continues_done (make a)

/-- A value goes on as the values inside it do. -/
theorem Continues.readWith {inner inner' : Reader Value} (hinner : Continues inner inner') :
    Continues (Payload.readWith inner) (Payload.readWith inner') := by
  rw [readWith_eq, readWith_eq]
  refine Continues.andThen steady_word32 fun tag => ?_
  unfold contentOf
  split
  · exact continues_done _
  split
  · exact Continues.readAs steady_boolean _
  split
  · exact Continues.readAs steady_integer _
  split
  · exact Continues.readAs steady_binary64 _
  split
  · exact Continues.readAs steady_text _
  split
  · exact Continues.readAs hinner.readList _
  split
  · exact Continues.readAs steady_labels _
  · exact continues_fail _

/-- A higher bound on the depth changes an answer only as more bytes do. -/
theorem continues_readWithin {depth depth' : Nat} (hdepth : depth ≤ depth') :
    Continues (readWithin depth) (readWithin depth') := by
  induction depth generalizing depth' with
  | zero => exact fun bs more => .inl rfl
  | succ depth ih =>
    cases depth' with
    | zero => exact absurd hdepth (Nat.not_succ_le_zero depth)
    | succ depth' => exact Continues.readWith (ih (Nat.le_of_succ_le_succ hdepth))

theorem steady_value : value.Steady := by
  refine Continues.readWith fun bs more => ?_
  have hdepth : bs.length + 1 ≤ (bs ++ more).length + 1 := by
    rw [List.length_append]
    omega
  exact continues_readWithin hdepth bs more

theorem steady_property {ε : Type} {element : Format ε} (helement : element.Steady) :
    (property element).Steady :=
  (steady_text.pair (steady_value.pair (helement.pair steady_value).list)).map _ _

theorem steady_groups : groups.Steady :=
  (steady_node.pair (steady_node.pair steady_word32).list).list

theorem steady_snapshot : snapshot.Steady :=
  (steady_text.pair (steady_word32.pair (steady_word64.pair (steady_groups.pair
    ((steady_property steady_node).list.pair ((steady_property steady_edge).list.pair
      (steady_text.pair steady_value).list)))))).map _ _

/-! ## The bytes of what is read -/

theorem frugal_node : node.Frugal (fun _ => True) fun _ => True :=
  frugal_word32.map _ _ fun _ => rfl

theorem frugal_edge : edge.Frugal (fun _ => True) fun _ => True := by
  have hparts : edge.Frugal _ _ :=
    (frugal_node.pair (frugal_node.pair frugal_word32)).map _ _ fun _ => rfl
  exact hparts.mono (fun _ _ => trivial) fun _ _ => ⟨trivial, trivial, trivial⟩

theorem frugal_binary64 : binary64.Frugal (fun _ => True) fun _ => True :=
  frugal_word64.map _ _ fun _ => rfl

theorem frugal_integer : integer.Frugal (fun _ => True) fun _ => True :=
  frugal_word64.map _ _ fun w => UInt64.toUInt64_toInt64 w

/-- Labels that are read may be repeated and out of order, so a set can be shorter than what
it was read from. -/
theorem frugal_labels :
    labels.Frugal (fun set => set.toList.length < 2 ^ 64 ∧ ∀ label ∈ set.toList, TextSized label)
      fun set => set.toList = [] := by
  intro bs set rest hread
  rw [labels, map_read] at hread
  obtain ⟨l, mid, hlist, hdone⟩ := andThen_eq_ok_iff.1 hread
  cases hdone
  obtain ⟨⟨hcount, hsized⟩, front, rfl, hlength, heq⟩ := frugal_text.list bs l rest hlist
  have hsub := LabelSet.subperm_ofList l
  refine ⟨⟨Nat.lt_of_le_of_lt hsub.length_le hcount, fun label hlabel => ?_⟩, front, rfl, ?_,
    fun hnone => ?_⟩
  · exact hsized label ((LabelSet.mem_ofList l label).1 hlabel)
  · obtain ⟨l', hperm, hsublist⟩ := hsub
    have hbytes : ((LabelSet.ofList l).toList.flatMap Format.text.write).length ≤
        (l.flatMap Format.text.write).length := by
      rw [← (hperm.flatMap_right Format.text.write).length_eq]
      exact (hsublist.flatMap Format.text.write).length_le
    refine Nat.le_trans ?_ hlength
    show (Format.text.list.write (LabelSet.ofList l).toList).length ≤ _
    simp only [Format.list, List.length_append, length_numberBytes]
    omega
  · have hnil : l = [] := by
      refine List.eq_nil_iff_forall_not_mem.2 fun a ha => ?_
      have hmem := (LabelSet.mem_ofList l a).2 ha
      rw [hnone] at hmem
      cases hmem
    subst hnil
    rw [heq fun _ _ => trivial]
    rfl

/-- The content of a value, behind the number of its kind. -/
theorem frugal_content {α : Type} {f : Format α} {fits plain : α → Prop} (hf : f.Frugal fits plain)
    {tag : UInt32} (make : α → Value)
    (hwrite : ∀ a, writeValue (make a) = Format.word32.write tag ++ f.write a)
    (hsized : ∀ a, fits a → (make a).Sized) (hplain : ∀ a, (make a).Unlabelled → plain a)
    {bs rest : Bytes} {v : Value} (hread : readAs f.read make bs = .ok (v, rest)) :
    v.Sized ∧ ∃ front, Format.word32.write tag ++ bs = front ++ rest ∧
      (writeValue v).length ≤ front.length ∧ (v.Unlabelled → front = writeValue v) := by
  rw [readAs_eq] at hread
  obtain ⟨a, mid, ha, hdone⟩ := andThen_eq_ok_iff.1 hread
  cases hdone
  obtain ⟨hfits, front, rfl, hlength, heq⟩ := hf bs a rest ha
  refine ⟨hsized a hfits, Format.word32.write tag ++ front, (List.append_assoc _ _ _).symm, ?_,
    fun hunlabelled => ?_⟩
  · rw [hwrite, List.length_append, List.length_append]
    omega
  · rw [heq (hplain a hunlabelled), hwrite]

theorem writeValue_list (items : List Value) (inner : Reader Value) :
    writeValue (.list items) =
      Format.word32.write 5 ++ (⟨writeValue, inner⟩ : Format Value).list.write items := by
  rw [writeValue, writeValues_eq_flatMap]
  rfl

/-- A value tells its bytes if the values inside it do. -/
theorem frugal_readWith {inner : Reader Value}
    (hinner : (⟨writeValue, inner⟩ : Format Value).Frugal Value.Sized Value.Unlabelled) :
    (⟨writeValue, readWith inner⟩ : Format Value).Frugal Value.Sized Value.Unlabelled := by
  intro bs v rest hread
  simp only [readWith_eq] at hread
  obtain ⟨tag, mid, hword, hcontent⟩ := andThen_eq_ok_iff.1 hread
  obtain ⟨-, front, rfl, -, hfront⟩ := frugal_word32 bs tag mid hword
  rw [hfront trivial]
  unfold contentOf at hcontent
  split at hcontent
  · rename_i htag
    cases hcontent
    exact ⟨trivial, writeValue .null, by rw [htag, writeValue], Nat.le_refl _, fun _ => rfl⟩
  split at hcontent
  · rename_i htag
    exact frugal_content frugal_boolean .bool (fun b => by rw [htag, writeValue])
      (fun _ _ => trivial) (fun _ _ => trivial) hcontent
  split at hcontent
  · rename_i htag
    exact frugal_content frugal_integer .int (fun n => by rw [htag, writeValue])
      (fun _ _ => trivial) (fun _ _ => trivial) hcontent
  split at hcontent
  · rename_i htag
    exact frugal_content frugal_binary64 .float (fun x => by rw [htag, writeValue])
      (fun _ _ => trivial) (fun _ _ => trivial) hcontent
  split at hcontent
  · rename_i htag
    exact frugal_content frugal_text .text (fun s => by rw [htag, writeValue])
      (fun _ hs => hs) (fun _ _ => trivial) hcontent
  split at hcontent
  · rename_i htag
    refine frugal_content hinner.list .list (fun items => by rw [htag, writeValue_list items inner])
      (fun items hitems => ?_) (fun items hitems => ?_) hcontent
    · exact ⟨hitems.1, (Value.sizedAll_iff items).2 hitems.2⟩
    · exact (Value.unlabelledAll_iff items).1 hitems
  split at hcontent
  · rename_i htag
    exact frugal_content frugal_labels .labels (fun set => by rw [htag, writeValue])
      (fun _ hset => hset) (fun _ hset => hset) hcontent
  · cases hcontent

theorem frugal_readWithin (depth : Nat) :
    (⟨writeValue, readWithin depth⟩ : Format Value).Frugal Value.Sized Value.Unlabelled := by
  induction depth with
  | zero =>
    intro bs v rest hread
    cases hread
  | succ depth ih => exact frugal_readWith ih

theorem frugal_value : value.Frugal Value.Sized Value.Unlabelled :=
  frugal_readWith fun bs v rest hread => frugal_readWithin (bs.length + 1) bs v rest hread

theorem frugal_property {ε : Type} {element : Format ε}
    (helement : element.Frugal (fun _ => True) fun _ => True) :
    (property element).Frugal StoredProperty.Sized StoredProperty.Unlabelled := by
  have hparts : (property element).Frugal _ _ :=
    (frugal_text.pair (frugal_value.pair (helement.pair frugal_value).list)).map _ _ fun _ => rfl
  refine hparts.mono (fun p hp => ?_) fun p hp => ?_
  · obtain ⟨hname, hdefault, hcount, hvalues⟩ := hp
    exact ⟨hname, hdefault, hcount, fun entry hentry => (hvalues entry hentry).2⟩
  · exact ⟨trivial, hp.1, fun entry hentry => ⟨trivial, hp.2 entry hentry⟩⟩

theorem frugal_groups :
    groups.Frugal (fun gs => gs.length < 2 ^ 64 ∧ ∀ group ∈ gs, group.2.length < 2 ^ 64)
      fun _ => True := by
  have hparts := (frugal_node.pair (frugal_node.pair frugal_word32).list).list
  refine hparts.mono (fun gs hgs => ⟨hgs.1, fun group hgroup => (hgs.2 group hgroup).2.1⟩) ?_
  exact fun gs _ group _ => ⟨trivial, fun entry _ => ⟨trivial, trivial⟩⟩

theorem frugal_snapshot : snapshot.Frugal Snapshot.Sized Snapshot.Unlabelled := by
  have hparts : snapshot.Frugal _ _ :=
    (frugal_text.pair (frugal_word32.pair (frugal_word64.pair (frugal_groups.pair
      ((frugal_property frugal_node).list.pair ((frugal_property frugal_edge).list.pair
        (frugal_text.pair frugal_value).list)))))).map _ _ fun _ => rfl
  refine hparts.mono (fun s hs => ?_) fun s hs => ?_
  · obtain ⟨hkind, -, -, ⟨hsources, htargets⟩, ⟨hnodes, hnode⟩, ⟨hedges, hedge⟩, hcount,
      hattributes⟩ := hs
    exact ⟨hkind, hsources, htargets, hnodes, hnode, hedges, hedge, hcount, hattributes⟩
  · exact ⟨trivial, trivial, trivial, trivial, hs.nodeProperties, hs.edgeProperties,
      fun entry hentry => ⟨trivial, hs.attributes entry hentry⟩⟩

/-! ## Snapshots -/

theorem read_eq_ok_iff {payload : Bytes} {s : Snapshot} :
    read payload = .ok s ↔ ∃ rest, snapshot.read payload = .ok (s, rest) := by
  unfold read
  cases snapshot.read payload with
  | error e => simp
  | ok result =>
    obtain ⟨s', rest⟩ := result
    simp

/-- Bytes end where their snapshot does. -/
structure Delimited (s : Snapshot) : Prop where
  /-- nothing behind the snapshot is looked at -/
  whole : ∀ rest, snapshot.read (write s ++ rest) = .ok (s, rest)
  ignored : ∀ rest, read (write s ++ rest) = .ok s
  /-- no shorter piece is read as anything -/
  cut : ∀ front, front <+: write s → front ≠ write s → read front = .error .ended

theorem delimited {s : Snapshot} (hsized : s.Sized) : Delimited s := by
  have hfaithful : snapshot.Faithful s := faithful_snapshot hsized
  have hwhole : ∀ rest, snapshot.read (write s ++ rest) = .ok (s, rest) := by
    unfold write
    exact hfaithful
  refine ⟨hwhole, fun rest => read_eq_ok_iff.2 ⟨rest, hwhole rest⟩, fun front hbegins hshort => ?_⟩
  unfold write at hbegins hshort
  have hended : snapshot.read front = .error .ended :=
    steady_snapshot.read_of_prefix hfaithful hbegins hshort
  unfold read
  rw [hended]

/-- The bytes of a snapshot are delimited, and tell it from every other snapshot; and what is
read from any bytes takes no more bytes to write, and exactly the bytes that it was read
from if it has no labels. -/
theorem delimiting :
    (∀ s : Snapshot, s.Sized → Delimited s) ∧
      (∀ s s' : Snapshot, s.Sized → s'.Sized → write s <+: write s' → s = s') ∧
      ∀ payload s, read payload = .ok s →
        s.Sized ∧ (write s).length ≤ payload.length ∧ (s.Unlabelled → write s <+: payload) := by
  refine ⟨fun s hsized => delimited hsized, ?_, ?_⟩
  · rintro s s' hsized hsized' ⟨rest, hrest⟩
    have hread := (delimited hsized).ignored rest
    rw [hrest, read_write hsized'] at hread
    exact (Except.ok.inj hread).symm
  · intro payload s hread
    obtain ⟨rest, hsnapshot⟩ := read_eq_ok_iff.1 hread
    obtain ⟨hsized, front, rfl, hlength, heq⟩ := frugal_snapshot payload s rest hsnapshot
    refine ⟨hsized, ?_, fun hunlabelled => ?_⟩
    · rw [List.length_append]
      exact Nat.le_trans hlength (Nat.le_add_right _ _)
    · rw [heq hunlabelled]
      exact List.prefix_append _ _

/-- A snapshot with nested values and a NaN, and a payload that goes on behind it. -/
theorem delimiting_nested :
    let s : Snapshot := ⟨"multidigraph", 2, 1, [(⟨0⟩, [(⟨1⟩, 0)])],
      [⟨"state", .null, [(⟨1⟩, .list [.int 5, .list [.text "x", .bool true], .list []])]⟩],
      [⟨"prob", .float ⟨0x7FF8000000000001⟩, [(⟨⟨0⟩, ⟨1⟩, 0⟩, .null)]⟩],
      [("atoms", .labels .empty)]⟩
    Delimited s ∧ write s <+: write s ++ [0xFF] := by
  intro s
  have hsized : s.Sized := by decide
  have hunlabelled : s.Unlabelled := by
    refine ⟨?_, ?_, ?_⟩ <;>
      simp [s, StoredProperty.Unlabelled, Value.Unlabelled, Value.UnlabelledAll, LabelSet.empty,
        LabelSet.toList]
  have hdelimited : Delimited s := delimiting.1 s hsized
  exact ⟨hdelimited, (delimiting.2.2 _ s (hdelimited.ignored [0xFF])).2.2 hunlabelled⟩

end Payload

end StateGraph
