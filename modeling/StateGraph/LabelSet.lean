set_option autoImplicit false

/-!
# Label sets

A set of labels is listed in the order of its texts, each once.  The order is by
code points, which is also the order of the bytes that encode them.
-/

namespace StateGraph

/-- A finite set of texts, held as an increasing list. -/
structure LabelSet where
  labels : List String
  increasing : labels.Pairwise (· < ·)

namespace LabelSet

theorem ext {s t : LabelSet} (h : s.labels = t.labels) : s = t := by
  cases s; cases t; cases h; rfl

instance : DecidableEq LabelSet := fun s t =>
  if h : s.labels = t.labels then .isTrue (ext h) else .isFalse fun e => h (e ▸ rfl)

instance : Repr LabelSet := ⟨fun s n => reprPrec s.labels n⟩

/-- The set without labels. -/
def empty : LabelSet := ⟨[], List.Pairwise.nil⟩

instance : Inhabited LabelSet := ⟨empty⟩

instance : EmptyCollection LabelSet := ⟨empty⟩

/-- The labels in increasing order. -/
def toList (s : LabelSet) : List String := s.labels

/-- Whether there is no label. -/
def isEmpty (s : LabelSet) : Bool := s.labels.isEmpty

/-- Whether a label is present. -/
def contains (s : LabelSet) (a : String) : Bool := decide (a ∈ s.labels)

/-- Puts a text into its place in an increasing list. -/
def place (a : String) : List String → List String
  | [] => [a]
  | b :: l => if a < b then a :: b :: l else if a = b then b :: l else b :: place a l

theorem mem_place (a x : String) (l : List String) : x ∈ place a l ↔ x = a ∨ x ∈ l := by
  induction l with
  | nil => simp [place]
  | cons b l ih =>
    unfold place
    split
    · simp
    · split
      · rename_i h; subst h; simp
      · simp only [List.mem_cons, ih]
        exact ⟨fun h => h.elim (fun h => .inr (.inl h)) (fun h => h.elim .inl (.inr ∘ .inr)),
          fun h => h.elim (.inr ∘ .inl) (fun h => h.elim .inl (.inr ∘ .inr))⟩

theorem pairwise_place (a : String) {l : List String} (h : l.Pairwise (· < ·)) :
    (place a l).Pairwise (· < ·) := by
  induction l with
  | nil => simp [place]
  | cons b l ih =>
    rw [List.pairwise_cons] at h
    unfold place
    split
    · rename_i hab
      refine List.pairwise_cons.2 ⟨?_, List.pairwise_cons.2 h⟩
      intro x hx
      rcases List.mem_cons.1 hx with rfl | hx
      · exact hab
      · exact String.lt_trans hab (h.1 x hx)
    · rename_i hab
      split
      · exact List.pairwise_cons.2 h
      · rename_i hne
        refine List.pairwise_cons.2 ⟨?_, ih h.2⟩
        intro x hx
        rcases (mem_place a x l).1 hx with rfl | hx
        · exact String.not_le.1 fun hle => hne (String.le_antisymm hle (String.not_lt.1 hab))
        · exact h.1 x hx

/-- Adds a label. -/
def insert (s : LabelSet) (a : String) : LabelSet :=
  ⟨place a s.labels, pairwise_place a s.increasing⟩

/-- The set of the texts in a list. -/
def ofList (l : List String) : LabelSet := l.foldl insert empty

@[simp] theorem mem_insert (s : LabelSet) (a x : String) :
    x ∈ (s.insert a).labels ↔ x = a ∨ x ∈ s.labels := mem_place a x s.labels

end LabelSet

end StateGraph
