import Mathlib.Algebra.GroupWithZero.Nat
import StateGraph.OrderedMap

set_option autoImplicit false

/-!
# Laws of maps in order of arrival

What a write does to a map, seen in each of the ways in which a map is read: by
key, by position, as a list, and as a sum over its values.  The sum law
(`OrderedMap.weigh_insert`) is what ties a counter to the map that it counts.
-/

namespace StateGraph

namespace AssocList

variable {κ α : Type} [DecidableEq κ]

/-! ## Lookup -/

theorem lookup_eq_none_iff (k : κ) (l : List (κ × α)) :
    lookup k l = none ↔ k ∉ l.map Prod.fst := by
  rw [← lookup_isSome_iff k l]
  cases lookup k l <;> simp

/-- With distinct keys, looking a key up finds exactly the entries that are
there. -/
theorem lookup_eq_some_iff {l : List (κ × α)} (hnodup : (l.map Prod.fst).Nodup) (k : κ) (a : α) :
    lookup k l = some a ↔ (k, a) ∈ l := by
  induction l with
  | nil => simp [lookup]
  | cons e l ih =>
    simp only [List.map_cons, List.nodup_cons] at hnodup
    by_cases hkey : e.1 = k
    · subst hkey
      simp only [lookup, if_true, Option.some.injEq, List.mem_cons]
      constructor
      · intro heq
        exact .inl (by rw [← heq])
      · rintro (heq | hmem)
        · rw [← heq]
        · exact absurd (List.mem_map_of_mem hmem) hnodup.1
    · have hne : (k, a) ≠ e := fun heq => hkey (by rw [← heq])
      simp only [lookup, hkey, if_false, List.mem_cons, hne, false_or]
      exact ih hnodup.2

theorem lookup_append (k : κ) (l₁ l₂ : List (κ × α)) :
    lookup k (l₁ ++ l₂) = (lookup k l₁).or (lookup k l₂) := by
  induction l₁ with
  | nil => simp [lookup]
  | cons e l₁ ih =>
    by_cases hkey : e.1 = k <;> simp [lookup, hkey, ih]

/-- Entries that are left out by their keys are missed under these keys only. -/
theorem lookup_filter (wanted : κ → Bool) (k : κ) (l : List (κ × α)) :
    lookup k (l.filter fun e => wanted e.1) = if wanted k then lookup k l else none := by
  induction l with
  | nil => simp [lookup]
  | cons e l ih =>
    by_cases hkey : e.1 = k
    · subst hkey
      by_cases hwanted : wanted e.1 = true
      · simp [lookup, hwanted]
      · simp [hwanted, ih]
    · by_cases hwanted : wanted e.1 = true
      · simp [lookup, hwanted, hkey, ih]
      · simp [lookup, hwanted, hkey, ih]

/-- Two lists that are filtered look alike if what is wanted looks alike. -/
theorem lookup_append_filter_congr (l : List (κ × α)) (wanted : κ → Bool) {k : κ}
    {l₁ l₂ : List (κ × α)} (hsame : wanted k = true → lookup k l₁ = lookup k l₂) :
    lookup k (l ++ l₁.filter fun e => wanted e.1) =
      lookup k (l ++ l₂.filter fun e => wanted e.1) := by
  rw [lookup_append, lookup_append, lookup_filter, lookup_filter]
  by_cases hwanted : wanted k = true
  · rw [if_pos hwanted, if_pos hwanted, hsame hwanted]
  · rw [if_neg hwanted, if_neg hwanted]

/-! ## Assignment -/

/-- A new key goes to the end. -/
theorem assign_of_not_mem {k : κ} {l : List (κ × α)} (hk : k ∉ l.map Prod.fst) (a : α) :
    assign k a l = l ++ [(k, a)] := by
  induction l with
  | nil => rfl
  | cons e l ih =>
    simp only [List.map_cons, List.mem_cons, not_or] at hk
    simp [assign, Ne.symm hk.1, ih hk.2]

/-- A key that is present keeps its place. -/
theorem assign_append_cons {k : κ} {l₁ : List (κ × α)} (hk : k ∉ l₁.map Prod.fst) (a b : α)
    (l₂ : List (κ × α)) :
    assign k a (l₁ ++ (k, b) :: l₂) = l₁ ++ (k, a) :: l₂ := by
  induction l₁ with
  | nil => simp [assign]
  | cons e l₁ ih =>
    simp only [List.map_cons, List.mem_cons, not_or] at hk
    simp [assign, Ne.symm hk.1, ih hk.2]

/-- The last of two assignments counts. -/
theorem assign_assign (k : κ) (a b : α) (l : List (κ × α)) :
    assign k b (assign k a l) = assign k b l := by
  induction l with
  | nil => simp [assign]
  | cons e l ih =>
    by_cases hkey : e.1 = k <;> simp [assign, hkey, ih]

theorem mem_of_mem_assign {k : κ} {a : α} {l : List (κ × α)} {e : κ × α}
    (hmem : e ∈ assign k a l) : e = (k, a) ∨ e ∈ l := by
  induction l with
  | nil => simpa [assign] using hmem
  | cons d l ih =>
    unfold assign at hmem
    split at hmem
    · rcases List.mem_cons.1 hmem with heq | hrest
      · exact .inl heq
      · exact .inr (List.mem_cons_of_mem d hrest)
    · rcases List.mem_cons.1 hmem with heq | hrest
      · exact .inr (heq ▸ List.mem_cons_self)
      · exact (ih hrest).imp id (List.mem_cons_of_mem d)

/-- A sum over the values changes by what the written key held before. -/
theorem sum_assign (f : α → Nat) (k : κ) (a : α) (l : List (κ × α)) :
    ((assign k a l).map fun e => f e.2).sum + (lookup k l).elim 0 f =
      (l.map fun e => f e.2).sum + f a := by
  induction l with
  | nil => simp [assign, lookup]
  | cons e l ih =>
    by_cases hkey : e.1 = k
    · simp only [assign, lookup, hkey, if_true, Option.elim, List.map_cons, List.sum_cons]
      omega
    · simp only [assign, lookup, hkey, if_false, List.map_cons, List.sum_cons]
      omega

/-! ## Positions -/

theorem position_eq_some_iff {l : List (κ × α)} (hnodup : (l.map Prod.fst).Nodup) (k : κ)
    (i : Nat) : position k l = some i ↔ (l.map Prod.fst)[i]? = some k := by
  induction l generalizing i with
  | nil => simp [position]
  | cons e l ih =>
    simp only [List.map_cons, List.nodup_cons] at hnodup
    by_cases hkey : e.1 = k
    · subst hkey
      simp only [position, if_true, Option.some.injEq, List.map_cons]
      cases i with
      | zero => simp
      | succ i =>
        simp only [List.getElem?_cons_succ, (Nat.succ_ne_zero i).symm, false_iff]
        intro hget
        exact hnodup.1 (List.mem_of_getElem? hget)
    · simp only [position, hkey, if_false, Option.map_eq_some_iff, List.map_cons]
      cases i with
      | zero => simp [hkey]
      | succ i => simp [ih hnodup.2]

end AssocList

namespace OrderedMap

variable {κ α : Type}

/-! ## Sums over values -/

/-- The sum of a function over the values. -/
def weigh (f : α → Nat) (m : OrderedMap κ α) : Nat := (m.values.map f).sum

@[simp] theorem toList_empty : (empty : OrderedMap κ α).toList = [] := rfl

@[simp] theorem keys_empty : (empty : OrderedMap κ α).keys = [] := rfl

@[simp] theorem weigh_empty (f : α → Nat) : (empty : OrderedMap κ α).weigh f = 0 := rfl

theorem mem_keys_of_mem {m : OrderedMap κ α} {e : κ × α} (hmem : e ∈ m.toList) : e.1 ∈ m.keys :=
  List.mem_map_of_mem hmem

variable [DecidableEq κ]

theorem weigh_insert (f : α → Nat) (m : OrderedMap κ α) (k : κ) (a : α) :
    (m.insert k a).weigh f + (m.get? k).elim 0 f = m.weigh f + f a := by
  have hsum := AssocList.sum_assign f k a m.entries
  simp only [weigh, values, List.map_map, Function.comp_def]
  exact hsum

/-! ## Reading by key -/

theorem get?_eq_some_iff (m : OrderedMap κ α) (k : κ) (a : α) :
    m.get? k = some a ↔ (k, a) ∈ m.toList :=
  AssocList.lookup_eq_some_iff m.distinct k a

theorem get?_eq_none_iff (m : OrderedMap κ α) (k : κ) : m.get? k = none ↔ k ∉ m.keys :=
  AssocList.lookup_eq_none_iff k m.entries

theorem get?_isSome_iff (m : OrderedMap κ α) (k : κ) : (m.get? k).isSome = true ↔ k ∈ m.keys :=
  AssocList.lookup_isSome_iff k m.entries

@[simp] theorem get?_upsert (m : OrderedMap κ α) (k j : κ) (f : Option α → α) :
    (m.upsert k f).get? j = if k = j then some (f (m.get? k)) else m.get? j :=
  get?_insert m k j _

theorem mem_of_mem_insert {m : OrderedMap κ α} {k : κ} {a : α} {e : κ × α}
    (hmem : e ∈ (m.insert k a).toList) : e = (k, a) ∨ e ∈ m.toList :=
  AssocList.mem_of_mem_assign hmem

/-- Maps are equal if they have the same keys in the same order and hold the same under each. -/
theorem eq_of_keys_of_get? {m n : OrderedMap κ α} (hkeys : m.keys = n.keys)
    (hget : ∀ k, m.get? k = n.get? k) : m = n := by
  have hentries : ∀ m : OrderedMap κ α, m.entries.map some =
      m.keys.map fun k => (m.get? k).map fun a => (k, a) := by
    intro m
    rw [keys, List.map_map]
    refine List.map_congr_left fun e he => ?_
    rw [Function.comp_apply, (get?_eq_some_iff m e.1 e.2).2 he]
    rfl
  refine ext ((List.map_inj_right fun _ _ => Option.some.inj).1 ?_)
  rw [hentries, hentries, hkeys]
  exact List.map_congr_left fun k _ => by rw [hget]

/-- The last of two writes under one key counts. -/
theorem insert_insert (m : OrderedMap κ α) (k : κ) (a b : α) :
    (m.insert k a).insert k b = m.insert k b :=
  ext (AssocList.assign_assign k a b m.entries)

theorem mem_keys_insert (m : OrderedMap κ α) (k j : κ) (a : α) :
    j ∈ (m.insert k a).keys ↔ j = k ∨ j ∈ m.keys := by
  rw [keys_insert]
  split
  · rename_i hk
    constructor
    · exact .inr
    · rintro (rfl | hj)
      · exact hk
      · exact hj
  · simp [or_comm]

/-! ## Reading as a list -/

theorem toList_insert (m : OrderedMap κ α) (k : κ) (a : α) :
    (m.insert k a).toList = AssocList.assign k a m.toList := rfl

theorem toList_insert_of_not_mem {m : OrderedMap κ α} {k : κ} (hk : k ∉ m.keys) (a : α) :
    (m.insert k a).toList = m.toList ++ [(k, a)] :=
  AssocList.assign_of_not_mem hk a

/-- Entries with new and distinct keys are added in order. -/
theorem toList_insertMany_of_disjoint (m : OrderedMap κ α) (l : List (κ × α))
    (hnodup : (m.keys ++ l.map Prod.fst).Nodup) : (m.insertMany l).toList = m.toList ++ l := by
  induction l generalizing m with
  | nil => simp [insertMany]
  | cons e l ih =>
    have hfresh : e.1 ∉ m.keys := by
      intro hmem
      have hdisjoint := (List.nodup_append.1 hnodup).2.2
      exact hdisjoint e.1 hmem e.1 (by simp) rfl
    have hlist : (m.insert e.1 e.2).toList = m.toList ++ [e] := toList_insert_of_not_mem hfresh e.2
    have hkeys : (m.insert e.1 e.2).keys = m.keys ++ [e.1] := by
      rw [keys_insert, if_neg hfresh]
    have hrest := ih (m.insert e.1 e.2) (by simpa [hkeys] using hnodup)
    rw [show m.insertMany (e :: l) = (m.insert e.1 e.2).insertMany l from rfl, hrest, hlist]
    simp

theorem toList_ofList {l : List (κ × α)} (hnodup : (l.map Prod.fst).Nodup) :
    (ofList l).toList = l := by
  have hlist := toList_insertMany_of_disjoint (empty : OrderedMap κ α) l (by simpa using hnodup)
  simpa [ofList] using hlist

/-- A map is made again of its entries. -/
theorem ofList_toList (m : OrderedMap κ α) : ofList m.toList = m :=
  ext (toList_ofList m.distinct)

/-- After several writes under distinct keys, a key holds what was written under
it, or else what it held before. -/
theorem get?_insertMany (m : OrderedMap κ α) {l : List (κ × α)} (hnodup : (l.map Prod.fst).Nodup)
    (j : κ) : (m.insertMany l).get? j = (AssocList.lookup j l).or (m.get? j) := by
  induction l generalizing m with
  | nil => simp [insertMany, AssocList.lookup]
  | cons e l ih =>
    simp only [List.map_cons, List.nodup_cons] at hnodup
    rw [show m.insertMany (e :: l) = (m.insert e.1 e.2).insertMany l from rfl, ih _ hnodup.2,
      get?_insert]
    by_cases hkey : e.1 = j
    · subst hkey
      have hnone : AssocList.lookup e.1 l = none :=
        (AssocList.lookup_eq_none_iff e.1 l).2 hnodup.1
      simp [AssocList.lookup, hnone]
    · simp [AssocList.lookup, hkey]

/-! ## Building group by group -/

/-- Works a list into what a key holds, from left to right. -/
def absorb {γ : Type} (step : α → γ → α) (start : α) (m : OrderedMap κ α) (k : κ) (l : List γ) :
    OrderedMap κ α :=
  l.foldl (fun m x => m.upsert k fun a => step (a.getD start) x) m

/-- A key that is last stays last, and takes up the list. -/
theorem toList_absorb_of_last {γ : Type} (step : α → γ → α) (start : α) {m : OrderedMap κ α}
    {before : List (κ × α)} {k : κ} {a : α} (hlist : m.toList = before ++ [(k, a)]) (l : List γ) :
    (m.absorb step start k l).toList = before ++ [(k, l.foldl step a)] := by
  induction l generalizing m a with
  | nil => exact hlist
  | cons x l ih =>
    have hdistinct : ((before ++ [(k, a)]).map Prod.fst).Nodup := hlist ▸ m.distinct
    have hk : k ∉ before.map Prod.fst := by
      rw [List.map_append, List.nodup_append] at hdistinct
      intro hmem
      exact hdistinct.2.2 k hmem k (by simp) rfl
    have hget : m.get? k = some a := (get?_eq_some_iff m k a).2 (by simp [hlist])
    have hstep : (m.upsert k fun b => step (b.getD start) x).toList =
        before ++ [(k, step a x)] := by
      rw [upsert, hget, Option.getD_some, toList_insert, hlist]
      exact AssocList.assign_append_cons hk (step a x) a []
    exact ih hstep

/-- A new key goes to the end with all that is worked into it, which is at least
one element. -/
theorem toList_absorb {γ : Type} (step : α → γ → α) (start : α) {m : OrderedMap κ α} {k : κ}
    (hk : k ∉ m.keys) {l : List γ} (hl : l ≠ []) :
    (m.absorb step start k l).toList = m.toList ++ [(k, l.foldl step start)] := by
  cases l with
  | nil => exact absurd rfl hl
  | cons x l =>
    have hnone : m.get? k = none := (get?_eq_none_iff m k).2 hk
    have hfirst : (m.upsert k fun b => step (b.getD start) x).toList =
        m.toList ++ [(k, step start x)] := by
      rw [upsert, hnone, Option.getD_none]
      exact toList_insert_of_not_mem hk _
    exact toList_absorb_of_last step start hfirst l

/-- Entries that come group by group, under new and distinct keys, give one key for
each group. -/
theorem toList_foldl_upsert {γ : Type} (step : α → γ → α) (start : α)
    (groups : List (κ × List γ)) (m : OrderedMap κ α)
    (hnodup : (m.keys ++ groups.map Prod.fst).Nodup) (hne : ∀ group ∈ groups, group.2 ≠ []) :
    ((groups.flatMap fun group => group.2.map fun x => (group.1, x)).foldl
        (fun m e => m.upsert e.1 fun a => step (a.getD start) e.2) m).toList =
      m.toList ++ groups.map fun group => (group.1, group.2.foldl step start) := by
  induction groups generalizing m with
  | nil => simp
  | cons group groups ih =>
    have hfresh : group.1 ∉ m.keys := by
      intro hmem
      exact (List.nodup_append.1 hnodup).2.2 group.1 hmem group.1 (by simp) rfl
    have hfirst := toList_absorb step start hfresh
      (hne group List.mem_cons_self)
    have hkeys : (m.absorb step start group.1 group.2).keys = m.keys ++ [group.1] := by
      rw [keys, show OrderedMap.entries _ = _ from hfirst, List.map_append]
      rfl
    have hrest := ih (m.absorb step start group.1 group.2) (by simpa [hkeys] using hnodup)
      fun other hother => hne other (List.mem_cons_of_mem group hother)
    rw [List.flatMap_cons, List.foldl_append, List.foldl_map]
    rw [absorb] at hrest hfirst
    rw [hrest, hfirst]
    simp

/-! ## Reading by position -/

theorem indexOf?_eq_some_iff (m : OrderedMap κ α) (k : κ) (i : Nat) :
    m.indexOf? k = some i ↔ m.keys[i]? = some k :=
  AssocList.position_eq_some_iff m.distinct k i

theorem indexOf?_isSome_iff (m : OrderedMap κ α) (k : κ) :
    (m.indexOf? k).isSome = true ↔ k ∈ m.keys := by
  rw [List.mem_iff_getElem?, Option.isSome_iff_exists]
  exact exists_congr fun i => indexOf?_eq_some_iff m k i

/-- Positions depend on the keys only. -/
theorem indexOf?_congr {β : Type} {m : OrderedMap κ α} {n : OrderedMap κ β}
    (hkeys : n.keys = m.keys) (k : κ) : n.indexOf? k = m.indexOf? k := by
  refine Option.ext fun i => ?_
  rw [indexOf?_eq_some_iff, indexOf?_eq_some_iff, hkeys]

/-- The entry at the position of a key is the entry of the key. -/
theorem entryAt?_of_indexOf? {m : OrderedMap κ α} {k : κ} {i : Nat}
    (hindex : m.indexOf? k = some i) :
    m.entryAt? i = (m.get? k).map fun a => (k, a) := by
  rw [indexOf?_eq_some_iff, keys, List.getElem?_map, Option.map_eq_some_iff] at hindex
  obtain ⟨e, hentry, rfl⟩ := hindex
  have hget : m.get? e.1 = some e.2 :=
    (get?_eq_some_iff m e.1 e.2).2 (List.mem_of_getElem? hentry)
  simp [entryAt?, hentry, hget]

end OrderedMap

end StateGraph
