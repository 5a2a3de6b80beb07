import StateGraph.Snapshot.Frame
import StateGraph.Proofs.Format
import StateGraph.Proofs.Results

set_option autoImplicit false

/-!
# Payloads are read as they were written

Every format of the payload is faithful, so a snapshot is read back as it was
written, whatever bytes follow (`Payload.read_write`).  Lengths are stored in 64
bits; `Snapshot.Sized` says that all lengths in a snapshot fit, which they do in
any machine that can hold the snapshot.

Values nest, and the reader recurses on a bound.  The bytes of a value are such a
bound (`Payload.faithful_readWithin`), because each value inside it has fewer.
-/

namespace StateGraph

/-! ## Lengths that fit -/

/-- The bytes of a text can be counted in 64 bits. -/
def TextSized (s : String) : Prop := (utf8 s).length < 2 ^ 64

instance (s : String) : Decidable (TextSized s) := inferInstanceAs (Decidable (_ < _))

namespace Value

mutual

/-- Every text and every list in a value has a length of 64 bits. -/
def Sized : Value → Prop
  | .text s => TextSized s
  | .list items => items.length < 2 ^ 64 ∧ SizedAll items
  | .labels set => set.toList.length < 2 ^ 64 ∧ ∀ label ∈ set.toList, TextSized label
  | _ => True

/-- The same for each value of a list. -/
def SizedAll : List Value → Prop
  | [] => True
  | v :: rest => Sized v ∧ SizedAll rest

end

mutual

/-- Whether the lengths in a value fit can be computed. -/
def decSized : (v : Value) → Decidable v.Sized
  | .text s => inferInstanceAs (Decidable (TextSized s))
  | .list items =>
    have := decSizedAll items
    inferInstanceAs (Decidable (items.length < 2 ^ 64 ∧ SizedAll items))
  | .labels set =>
    inferInstanceAs (Decidable (set.toList.length < 2 ^ 64 ∧ ∀ label ∈ set.toList, TextSized label))
  | .null => .isTrue trivial
  | .bool _ => .isTrue trivial
  | .int _ => .isTrue trivial
  | .float _ => .isTrue trivial

/-- The same for each value of a list. -/
def decSizedAll : (items : List Value) → Decidable (SizedAll items)
  | [] => .isTrue trivial
  | v :: rest =>
    have := decSized v
    have := decSizedAll rest
    inferInstanceAs (Decidable (Sized v ∧ SizedAll rest))

end

instance : DecidablePred Sized := decSized

theorem Sized.of_mem {items : List Value} (hsized : SizedAll items) {v : Value} (hv : v ∈ items) :
    v.Sized := by
  induction items with
  | nil => cases hv
  | cons w items ih =>
    obtain ⟨hw, hrest⟩ := hsized
    rcases List.mem_cons.1 hv with rfl | hv
    · exact hw
    · exact ih hrest hv

end Value

/-- The lengths in a stored property have 64 bits. -/
structure StoredProperty.Sized {ε : Type} (p : StoredProperty ε) : Prop where
  name : TextSized p.name
  default : p.default.Sized
  count : p.values.length < 2 ^ 64
  values : ∀ entry ∈ p.values, entry.2.Sized

instance {ε : Type} (p : StoredProperty ε) : Decidable p.Sized :=
  decidable_of_iff
    (TextSized p.name ∧ p.default.Sized ∧ p.values.length < 2 ^ 64 ∧
      ∀ entry ∈ p.values, entry.2.Sized)
    ⟨fun ⟨name, default, count, values⟩ => ⟨name, default, count, values⟩,
      fun h => ⟨h.name, h.default, h.count, h.values⟩⟩

/-- The lengths in a snapshot have 64 bits. -/
structure Snapshot.Sized (s : Snapshot) : Prop where
  kind : TextSized s.kind
  sources : s.groups.length < 2 ^ 64
  targets : ∀ group ∈ s.groups, group.2.length < 2 ^ 64
  nodeCount : s.nodeProperties.length < 2 ^ 64
  nodeProperties : ∀ p ∈ s.nodeProperties, p.Sized
  edgeCount : s.edgeProperties.length < 2 ^ 64
  edgeProperties : ∀ p ∈ s.edgeProperties, p.Sized
  attributeCount : s.attributes.length < 2 ^ 64
  attributes : ∀ entry ∈ s.attributes, TextSized entry.1 ∧ entry.2.Sized

instance (s : Snapshot) : Decidable s.Sized :=
  decidable_of_iff
    (TextSized s.kind ∧ s.groups.length < 2 ^ 64 ∧ (∀ group ∈ s.groups, group.2.length < 2 ^ 64) ∧
      s.nodeProperties.length < 2 ^ 64 ∧ (∀ p ∈ s.nodeProperties, p.Sized) ∧
      s.edgeProperties.length < 2 ^ 64 ∧ (∀ p ∈ s.edgeProperties, p.Sized) ∧
      s.attributes.length < 2 ^ 64 ∧ ∀ entry ∈ s.attributes, TextSized entry.1 ∧ entry.2.Sized)
    ⟨fun ⟨kind, sources, targets, nodeCount, nodes, edgeCount, edges, count, attributes⟩ =>
        ⟨kind, sources, targets, nodeCount, nodes, edgeCount, edges, count, attributes⟩,
      fun h => ⟨h.kind, h.sources, h.targets, h.nodeCount, h.nodeProperties, h.edgeCount,
        h.edgeProperties, h.attributeCount, h.attributes⟩⟩

/-! ## Label sets -/

namespace LabelSet

/-- A label above all others goes to the end. -/
theorem place_of_forall_lt {a : String} {l : List String} (habove : ∀ b ∈ l, b < a) :
    place a l = l ++ [a] := by
  induction l with
  | nil => rfl
  | cons b l ih =>
    have hlt : b < a := habove b List.mem_cons_self
    have hnot : ¬ a < b := fun hgt => String.lt_irrefl a (String.lt_trans hgt hlt)
    have hne : a ≠ b := by
      rintro rfl
      exact hnot hlt
    rw [place, if_neg hnot, if_neg hne, ih fun c hc => habove c (List.mem_cons_of_mem b hc)]
    rfl

/-- Labels above all others and in order are added in order. -/
theorem labels_foldl_insert (l : List String) (s : LabelSet)
    (hincreasing : (s.labels ++ l).Pairwise (· < ·)) :
    (l.foldl insert s).labels = s.labels ++ l := by
  induction l generalizing s with
  | nil => simp
  | cons a l ih =>
    have hcross := (List.pairwise_append.1 hincreasing).2.2
    have hlabels : (s.insert a).labels = s.labels ++ [a] :=
      place_of_forall_lt fun b hb => hcross b hb a List.mem_cons_self
    rw [List.foldl_cons, ih (s.insert a) (by simpa [hlabels] using hincreasing), hlabels]
    simp

/-- A set is made again of its labels. -/
theorem ofList_toList (s : LabelSet) : ofList s.toList = s :=
  ext (labels_foldl_insert s.labels empty s.increasing)

end LabelSet

namespace Payload

open Format

/-! ## Parts without nesting -/

theorem faithful_boolean (b : Bool) : Format.boolean.Faithful b := by
  intro rest
  cases b <;> rfl

theorem faithful_node (n : NodeId) : node.Faithful n := (faithful_word32 n.index).map rfl

theorem faithful_edge (e : EdgeId) : edge.Faithful e := by
  refine Faithful.map ?_ rfl
  exact (faithful_node e.source).pair ((faithful_node e.target).pair (faithful_word32 e.key))

theorem faithful_binary64 (x : Binary64) : binary64.Faithful x := (faithful_word64 x.bits).map rfl

theorem faithful_integer (n : Int64) : integer.Faithful n := (faithful_word64 n.toUInt64).map rfl

theorem faithful_labels {set : LabelSet} (hcount : set.toList.length < 2 ^ 64)
    (hlabels : ∀ label ∈ set.toList, TextSized label) : labels.Faithful set := by
  have hlist : Format.text.list.Faithful set.toList :=
    Faithful.list (fun label hlabel => faithful_text (hlabels label hlabel)) hcount
  exact hlist.map (LabelSet.ofList_toList set)

/-! ## Values -/

theorem writeValues_eq_flatMap (items : List Value) :
    writeValues items = items.flatMap writeValue := by
  induction items with
  | nil => rfl
  | cons v items ih => rw [writeValues, List.flatMap_cons, ih]

/-- The number of its kind alone takes bytes. -/
theorem length_writeValue_pos (v : Value) : 0 < (writeValue v).length := by
  have htag : ∀ (tag : UInt32) (content : Bytes),
      0 < (Format.word32.write tag ++ content).length := by
    intro tag content
    rw [List.length_append, Format.word32, Format.length_numberBytes]
    omega
  cases v with
  | null => exact htag 0 []
  | bool b => exact htag 1 _
  | int n => exact htag 2 _
  | float x => exact htag 3 _
  | text s => exact htag 4 _
  | list items => exact htag 5 _
  | labels set => exact htag 6 _

/-- A value inside a list has fewer bytes than the list. -/
theorem length_writeValue_lt_list {items : List Value} {v : Value} (hv : v ∈ items) :
    (writeValue v).length < (writeValue (.list items)).length := by
  have hmem : (writeValue v).length ≤ (items.flatMap writeValue).length := by
    obtain ⟨before, after, rfl⟩ := List.append_of_mem hv
    simp only [List.flatMap_append, List.flatMap_cons, List.length_append]
    omega
  rw [writeValue, writeValues_eq_flatMap]
  simp only [List.length_append, Format.word32, Format.length_numberBytes]
  omega

/-- A content that is read faithfully makes the value that it is the content of. -/
theorem readAs_write {α : Type} {f : Format α} {a : α} (hfaithful : f.Faithful a)
    (make : α → Value) (rest : Bytes) :
    readAs f.read make (f.write a ++ rest) = .ok (make a, rest) := by
  rw [readAs, hfaithful rest]

/-- A value is read back if the values inside it are. -/
theorem faithful_readWith {inner : Reader Value} {v : Value} (hsized : v.Sized)
    (hinner : ∀ items, v = .list items →
      ∀ item ∈ items, (⟨writeValue, inner⟩ : Format Value).Faithful item) :
    (⟨writeValue, readWith inner⟩ : Format Value).Faithful v := by
  intro rest
  show readWith inner (writeValue v ++ rest) = .ok (v, rest)
  have htag : ∀ tag bs, Format.word32.read (Format.word32.write tag ++ bs) = .ok (tag, bs) :=
    fun tag => faithful_word32 tag
  cases v with
  | null =>
    rw [writeValue, readWith, htag]
    rfl
  | bool b =>
    rw [writeValue, List.append_assoc, readWith, htag]
    exact readAs_write (faithful_boolean b) .bool rest
  | int n =>
    rw [writeValue, List.append_assoc, readWith, htag]
    exact readAs_write (faithful_integer n) .int rest
  | float x =>
    rw [writeValue, List.append_assoc, readWith, htag]
    exact readAs_write (faithful_binary64 x) .float rest
  | text s =>
    rw [writeValue, List.append_assoc, readWith, htag]
    exact readAs_write (faithful_text hsized) .text rest
  | list items =>
    rw [writeValue, writeValues_eq_flatMap, List.append_assoc, readWith, htag]
    have hlist : (⟨writeValue, inner⟩ : Format Value).list.Faithful items :=
      Faithful.list (hinner items rfl) hsized.1
    exact readAs_write hlist .list rest
  | labels set =>
    rw [writeValue, List.append_assoc, readWith, htag]
    exact readAs_write (faithful_labels hsized.1 hsized.2) .labels rest

/-- The length of its bytes bounds the nesting of a value. -/
theorem faithful_readWithin (depth : Nat) {v : Value} (hsized : v.Sized)
    (hdepth : (writeValue v).length ≤ depth) :
    (⟨writeValue, readWithin depth⟩ : Format Value).Faithful v := by
  induction depth generalizing v with
  | zero =>
    have hpos := length_writeValue_pos v
    omega
  | succ depth ih =>
    refine faithful_readWith hsized ?_
    rintro items rfl item hitem
    have hlt := length_writeValue_lt_list hitem
    exact ih (Value.Sized.of_mem hsized.2 hitem) (by omega)

theorem faithful_value {v : Value} (hsized : v.Sized) : value.Faithful v := by
  refine faithful_readWith hsized ?_
  rintro items rfl item hitem rest
  have hlength : (writeValue item).length ≤ (writeValue item ++ rest).length + 1 := by
    rw [List.length_append]
    omega
  exact faithful_readWithin _ (Value.Sized.of_mem hsized.2 hitem) hlength rest

/-! ## Snapshots -/

theorem faithful_property {ε : Type} {element : Format ε} (helement : ∀ e, element.Faithful e)
    {p : StoredProperty ε} (hsized : p.Sized) : (property element).Faithful p := by
  have hvalues : (element.pair value).list.Faithful p.values :=
    Faithful.list (fun entry hentry => (helement entry.1).pair
      (faithful_value (hsized.values entry hentry))) hsized.count
  refine Faithful.map ?_ rfl
  exact (faithful_text hsized.name).pair ((faithful_value hsized.default).pair hvalues)

theorem faithful_groups {gs : List (NodeId × List (NodeId × UInt32))} (hcount : gs.length < 2 ^ 64)
    (htargets : ∀ group ∈ gs, group.2.length < 2 ^ 64) : groups.Faithful gs := by
  refine Faithful.list (fun group hgroup => (faithful_node group.1).pair ?_) hcount
  exact Faithful.list (fun entry _ => (faithful_node entry.1).pair (faithful_word32 entry.2))
    (htargets group hgroup)

theorem faithful_snapshot {s : Snapshot} (hsized : s.Sized) : snapshot.Faithful s := by
  have hgroups : groups.Faithful s.groups := faithful_groups hsized.sources hsized.targets
  have hnodes : (property node).list.Faithful s.nodeProperties :=
    Faithful.list (fun p hp => faithful_property faithful_node (hsized.nodeProperties p hp))
      hsized.nodeCount
  have hedges : (property edge).list.Faithful s.edgeProperties :=
    Faithful.list (fun p hp => faithful_property faithful_edge (hsized.edgeProperties p hp))
      hsized.edgeCount
  have hattributes : (Format.text.pair value).list.Faithful s.attributes :=
    Faithful.list (fun entry hentry => (faithful_text (hsized.attributes entry hentry).1).pair
      (faithful_value (hsized.attributes entry hentry).2)) hsized.attributeCount
  refine Faithful.map ?_ rfl
  exact (faithful_text hsized.kind).pair ((faithful_word32 s.nodeCount).pair
    ((faithful_word64 s.edgeCount).pair (hgroups.pair (hnodes.pair
      (hedges.pair hattributes)))))

/-- A snapshot is read back as it was written. -/
theorem read_write {s : Snapshot} (hsized : s.Sized) : read (write s) = .ok s := by
  have hread : snapshot.read (snapshot.write s) = .ok (s, []) := by
    simpa using faithful_snapshot hsized []
  unfold Payload.read Payload.write
  rw [hread]

end Payload

/-! ## Frames -/

/-- A payload is taken out of its frame as it was put in. -/
theorem Frame.unwrap_wrap (digest : Bytes → Digest) (payload : Bytes) :
    unwrap digest (wrap digest payload) = .ok payload := by
  have hdigest : (digest payload).toList.length = 32 := Vector.length_toList
  have hversion : (Format.word16.write version).length = 2 := rfl
  have hmagic : magic.length = 8 := rfl
  have hlength : ¬ (wrap digest payload).length < headerLength := by
    simp only [wrap, List.length_append, hmagic, hversion, hdigest, headerLength]
    omega
  have htake : (wrap digest payload).take 8 = magic := by
    simp only [wrap, List.append_assoc]
    exact List.take_left' hmagic
  have hdrop8 : (wrap digest payload).drop 8 =
      Format.word16.write version ++ ((digest payload).toList ++ payload) := by
    simp only [wrap, List.append_assoc]
    exact List.drop_left' hmagic
  have hdrop10 : (wrap digest payload).drop 10 = (digest payload).toList ++ payload := by
    have hsplit : (wrap digest payload).drop 10 = ((wrap digest payload).drop 8).drop 2 := by simp
    rw [hsplit, hdrop8, List.drop_left' hversion]
  have hdrop42 : (wrap digest payload).drop headerLength = payload := by
    have hsplit : (wrap digest payload).drop headerLength =
        ((wrap digest payload).drop 10).drop 32 := by simp [headerLength]
    rw [hsplit, hdrop10, List.drop_left' hdigest]
  have hfound : (Format.numberOf (Format.word16.write version)).toUInt16 = version := rfl
  unfold unwrap
  rw [if_neg hlength, htake, hdrop8, hdrop10, hdrop42, List.take_left' hversion,
    List.take_left' hdigest]
  simp [hfound]

end StateGraph
