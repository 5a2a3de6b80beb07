set_option autoImplicit false

/-!
# Maps and sets in order of arrival

Property declarations, explicit values, adjacency lists and state indexes are
all finite maps whose listing order is observable: a new key goes to the end,
and writing to a key that is present keeps its place and takes the new value.
Keys never leave such a map, so the position of a key is stable for good, which
is what lets a position serve as a handle.

`OrderedMap` carries the distinctness of its keys in its type; `OrderedSet` is
the same container without values.  Each operation below has one equation
through `get?` and one through the list of keys.
-/

namespace StateGraph

/-! ## Association lists -/

namespace AssocList

/-- Writes `a` under `k`: in place if `k` occurs, at the end if it does not. -/
def assign {κ α : Type} [DecidableEq κ] (k : κ) (a : α) : List (κ × α) → List (κ × α)
  | [] => [(k, a)]
  | e :: l => if e.1 = k then (k, a) :: l else e :: assign k a l

/-- The value filed under `k`. -/
def lookup {κ α : Type} [DecidableEq κ] (k : κ) : List (κ × α) → Option α
  | [] => none
  | e :: l => if e.1 = k then some e.2 else lookup k l

/-- The position of `k`. -/
def position {κ α : Type} [DecidableEq κ] (k : κ) : List (κ × α) → Option Nat
  | [] => none
  | e :: l => if e.1 = k then some 0 else (position k l).map (· + 1)

theorem keys_assign {κ α : Type} [DecidableEq κ] (k : κ) (a : α) (l : List (κ × α)) :
    (assign k a l).map Prod.fst =
      if k ∈ l.map Prod.fst then l.map Prod.fst else l.map Prod.fst ++ [k] := by
  induction l with
  | nil => simp [assign]
  | cons e l ih =>
    by_cases h : e.1 = k
    · simp [assign, h]
    · have h' : ¬ k = e.1 := fun hk => h hk.symm
      simp only [assign, h, if_false, List.map_cons, ih, List.mem_cons, h', false_or]
      split <;> simp

theorem nodup_keys_assign {κ α : Type} [DecidableEq κ] (k : κ) (a : α) {l : List (κ × α)}
    (h : (l.map Prod.fst).Nodup) : ((assign k a l).map Prod.fst).Nodup := by
  rw [keys_assign]
  split
  · exact h
  · rename_i hk
    rw [List.nodup_append]
    refine ⟨h, by simp, ?_⟩
    intro x hx y hy hxy
    simp only [List.mem_singleton] at hy
    exact hk (hy ▸ hxy ▸ hx)

theorem lookup_assign {κ α : Type} [DecidableEq κ] (k j : κ) (a : α) (l : List (κ × α)) :
    lookup j (assign k a l) = if k = j then some a else lookup j l := by
  induction l with
  | nil => by_cases h : k = j <;> simp [assign, lookup, h]
  | cons e l ih =>
    by_cases h : e.1 = k <;> by_cases hj : k = j
    · simp [assign, lookup, h, hj]
    · simp [assign, lookup, h, hj]
    · subst hj
      simpa [assign, lookup, h] using ih
    · simp [assign, lookup, h, ih, hj]

theorem lookup_isSome_iff {κ α : Type} [DecidableEq κ] (k : κ) (l : List (κ × α)) :
    (lookup k l).isSome = true ↔ k ∈ l.map Prod.fst := by
  induction l with
  | nil => simp [lookup]
  | cons e l ih =>
    by_cases h : e.1 = k
    · simp [lookup, h]
    · have h' : ¬ k = e.1 := fun hk => h hk.symm
      simp only [lookup, h, if_false, ih, List.map_cons, List.mem_cons, h', false_or]

end AssocList

/-! ## Maps -/

/-- A finite map that lists its entries in the order in which their keys first
arrived. -/
structure OrderedMap (κ α : Type) where
  entries : List (κ × α)
  distinct : (entries.map Prod.fst).Nodup

namespace OrderedMap

variable {κ α : Type}

/-- The map without entries. -/
def empty : OrderedMap κ α := ⟨[], List.nodup_nil⟩

instance : Inhabited (OrderedMap κ α) := ⟨empty⟩

instance : EmptyCollection (OrderedMap κ α) := ⟨empty⟩

/-- Two maps are equal when they list the same entries in the same order. -/
theorem ext {m n : OrderedMap κ α} (h : m.entries = n.entries) : m = n := by
  cases m; cases n; cases h; rfl

instance [DecidableEq κ] [DecidableEq α] : DecidableEq (OrderedMap κ α) := fun m n =>
  if h : m.entries = n.entries then .isTrue (ext h) else .isFalse fun e => h (e ▸ rfl)

/-- The entries, in order of arrival. -/
def toList (m : OrderedMap κ α) : List (κ × α) := m.entries

/-- The keys, in order of arrival. -/
def keys (m : OrderedMap κ α) : List κ := m.entries.map Prod.fst

/-- The values, in order of arrival of their keys. -/
def values (m : OrderedMap κ α) : List α := m.entries.map Prod.snd

/-- Number of entries. -/
def size (m : OrderedMap κ α) : Nat := m.entries.length

/-- Whether there is no entry. -/
def isEmpty (m : OrderedMap κ α) : Bool := m.entries.isEmpty

/-- The entry at a position, counted from zero. -/
def entryAt? (m : OrderedMap κ α) (i : Nat) : Option (κ × α) := m.entries[i]?

theorem nodup_keys (m : OrderedMap κ α) : m.keys.Nodup := m.distinct

variable [DecidableEq κ]

/-- The value under a key. -/
def get? (m : OrderedMap κ α) (k : κ) : Option α := AssocList.lookup k m.entries

/-- Whether a key is present. -/
def contains (m : OrderedMap κ α) (k : κ) : Bool := (m.get? k).isSome

/-- The position of a key, counted from zero. -/
def indexOf? (m : OrderedMap κ α) (k : κ) : Option Nat := AssocList.position k m.entries

/-- Writes a value: a present key keeps its position, a new key goes to the
end. -/
def insert (m : OrderedMap κ α) (k : κ) (a : α) : OrderedMap κ α :=
  ⟨AssocList.assign k a m.entries, AssocList.nodup_keys_assign k a m.distinct⟩

/-- Writes, one after another, the entries of a list. -/
def insertMany (m : OrderedMap κ α) (l : List (κ × α)) : OrderedMap κ α :=
  l.foldl (fun m e => m.insert e.1 e.2) m

/-- A repeated key keeps its first position and its last value. -/
def ofList (l : List (κ × α)) : OrderedMap κ α := empty.insertMany l

/-- Writes the value computed from what the key holds so far. -/
def upsert (m : OrderedMap κ α) (k : κ) (f : Option α → α) : OrderedMap κ α :=
  m.insert k (f (m.get? k))

@[simp] theorem get?_empty (k : κ) : (empty : OrderedMap κ α).get? k = none := rfl

/-- A write is seen under its own key and nowhere else. -/
@[simp] theorem get?_insert (m : OrderedMap κ α) (k j : κ) (a : α) :
    (m.insert k a).get? j = if k = j then some a else m.get? j :=
  AssocList.lookup_assign k j a m.entries

/-- A write adds its key at the end, and moves nothing if the key is present. -/
theorem keys_insert (m : OrderedMap κ α) (k : κ) (a : α) :
    (m.insert k a).keys = if k ∈ m.keys then m.keys else m.keys ++ [k] :=
  AssocList.keys_assign k a m.entries

theorem contains_iff_mem_keys (m : OrderedMap κ α) (k : κ) :
    m.contains k = true ↔ k ∈ m.keys :=
  AssocList.lookup_isSome_iff k m.entries

end OrderedMap

/-! ## Sets -/

/-- A finite set that lists its members in the order in which they first
arrived. -/
structure OrderedSet (α : Type) where
  members : List α
  distinct : members.Nodup

namespace OrderedSet

variable {α : Type}

/-- The set without members. -/
def empty : OrderedSet α := ⟨[], List.nodup_nil⟩

instance : Inhabited (OrderedSet α) := ⟨empty⟩

instance : EmptyCollection (OrderedSet α) := ⟨empty⟩

theorem ext {s t : OrderedSet α} (h : s.members = t.members) : s = t := by
  cases s; cases t; cases h; rfl

instance [DecidableEq α] : DecidableEq (OrderedSet α) := fun s t =>
  if h : s.members = t.members then .isTrue (ext h) else .isFalse fun e => h (e ▸ rfl)

/-- The members, in order of arrival. -/
def toList (s : OrderedSet α) : List α := s.members

/-- Number of members. -/
def size (s : OrderedSet α) : Nat := s.members.length

variable [DecidableEq α]

/-- Whether an element is present. -/
def contains (s : OrderedSet α) (a : α) : Bool := decide (a ∈ s.members)

/-- The position of a member, counted from zero. -/
def indexOf? (s : OrderedSet α) (a : α) : Option Nat := s.members.findIdx? (fun b => decide (b = a))

/-- Adds an element at the end, unless it is present. -/
def insert (s : OrderedSet α) (a : α) : OrderedSet α :=
  if h : a ∈ s.members then s
  else ⟨s.members ++ [a], by
    rw [List.nodup_append]
    refine ⟨s.distinct, by simp, ?_⟩
    intro x hx y hy hxy
    simp only [List.mem_singleton] at hy
    exact h (hy ▸ hxy ▸ hx)⟩

/-- The distinct elements of a list, in order of first occurrence. -/
def ofList (l : List α) : OrderedSet α := l.foldl OrderedSet.insert empty

@[simp] theorem mem_insert (s : OrderedSet α) (a b : α) :
    b ∈ (s.insert a).members ↔ b ∈ s.members ∨ b = a := by
  unfold insert
  split
  · rename_i h
    exact ⟨Or.inl, fun hb => hb.elim id fun e => e ▸ h⟩
  · simp

end OrderedSet

end StateGraph
