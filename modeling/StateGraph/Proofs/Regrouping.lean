import Mathlib.Data.List.Perm.Basic
import Mathlib.Data.List.Induction
import Mathlib.Data.List.Nodup
import StateGraph.Proofs.Maps

set_option autoImplicit false

/-!
# Lists regrouped by a key

Elements of one key are put together, in the order in which they come; the keys
themselves come in the order of their first element.  This is how a map files the
elements of a list under their keys.

Regrouping keeps all elements (`perm_regroup`).  It keeps their order too if the
keys come in the order in which they first arrived (`flatMap_filter_eq_self`).

Merging keeps one element for each key: a repeated key keeps the place of its first
element and the content of its last.  This is what a list of entries becomes when it is
written into a map (`OrderedMap.toList_ofList_eq_merged`).
-/

namespace StateGraph

/-- Only one element of a list without repetitions counts. -/
theorem flatMap_eq_of_unique {α β : Type} {l : List α} (hdistinct : l.Nodup) {a : α} (ha : a ∈ l)
    {f : α → List β} (hother : ∀ b ∈ l, b ≠ a → f b = []) : l.flatMap f = f a := by
  induction l with
  | nil => cases ha
  | cons b l ih =>
    rw [List.nodup_cons] at hdistinct
    rw [List.flatMap_cons]
    rcases List.mem_cons.1 ha with rfl | hmem
    · have hrest : l.flatMap f = [] := by
        rw [List.flatMap_eq_nil_iff]
        intro c hc
        exact hother c (List.mem_cons_of_mem _ hc) fun heq => hdistinct.1 (heq ▸ hc)
      rw [hrest, List.append_nil]
    · have hfirst : f b = [] :=
        hother b List.mem_cons_self fun heq => hdistinct.1 (heq ▸ hmem)
      rw [hfirst, List.nil_append]
      exact ih hdistinct.2 hmem fun c hc => hother c (List.mem_cons_of_mem b hc)

variable {κ κ' β : Type} [DecidableEq κ] [DecidableEq κ']

theorem OrderedSet.toList_insert (s : OrderedSet κ) (k : κ) :
    (s.insert k).toList = if k ∈ s.toList then s.toList else s.toList ++ [k] := by
  unfold insert toList
  split <;> rfl

/-! ## Keys in order of arrival -/

/-- The keys of a list, each once, in the order of their first elements. -/
def arrivals (key : β → κ) (l : List β) : List κ := (OrderedSet.ofList (l.map key)).toList

variable {key : β → κ}

theorem nodup_arrivals (key : β → κ) (l : List β) : (arrivals key l).Nodup :=
  (OrderedSet.ofList (l.map key)).distinct

/-- A key arrives unless it has arrived before. -/
theorem arrivals_concat (key : β → κ) (l : List β) (b : β) :
    arrivals key (l ++ [b]) =
      if key b ∈ arrivals key l then arrivals key l else arrivals key l ++ [key b] := by
  rw [arrivals, OrderedSet.ofList, List.map_append, List.foldl_append]
  exact OrderedSet.toList_insert _ _

theorem mem_arrivals_iff (l : List β) (k : κ) : k ∈ arrivals key l ↔ ∃ b ∈ l, key b = k := by
  induction l using List.reverseRecOn with
  | nil => simp [arrivals, OrderedSet.ofList, OrderedSet.empty, OrderedSet.toList]
  | append_singleton l b ih =>
    have hmem : k ∈ arrivals key (l ++ [b]) ↔ k ∈ arrivals key l ∨ k = key b := by
      rw [arrivals_concat]
      split
      · rename_i hb
        constructor
        · exact .inl
        · rintro (hk | rfl)
          · exact hk
          · exact hb
      · simp
    rw [hmem, ih]
    simp [or_and_right, exists_or, eq_comm]

/-- Renamed keys arrive in the same order, if different keys stay different. -/
theorem arrivals_rename {f : κ → κ'} {l : List β}
    (hinjective : ∀ b ∈ l, ∀ c ∈ l, f (key b) = f (key c) → key b = key c) :
    arrivals (fun b => f (key b)) l = (arrivals key l).map f := by
  induction l using List.reverseRecOn with
  | nil => rfl
  | append_singleton l b ih =>
    have hrest := ih fun c hc d hd => hinjective c (by simp [hc]) d (by simp [hd])
    have hmem : f (key b) ∈ (arrivals key l).map f ↔ key b ∈ arrivals key l := by
      constructor
      · intro hf
        obtain ⟨k, hk, heq⟩ := List.mem_map.1 hf
        obtain ⟨c, hc, rfl⟩ := (mem_arrivals_iff l k).1 hk
        rwa [← hinjective c (by simp [hc]) b (by simp) heq]
      · exact List.mem_map_of_mem
    rw [arrivals_concat, arrivals_concat, hrest]
    by_cases hb : key b ∈ arrivals key l
    · rw [if_pos hb, if_pos (hmem.2 hb)]
    · rw [if_neg hb, if_neg (mt hmem.1 hb), List.map_append, List.map_singleton]

theorem arrivals_map {γ : Type} (key : β → κ) (f : γ → β) (l : List γ) :
    arrivals key (l.map f) = arrivals (fun c => key (f c)) l := by
  rw [arrivals, List.map_map]
  rfl

/-- A key that has arrived has a last element. -/
theorem exists_getLast?_of_mem_arrivals {l : List β} {k : κ} (hk : k ∈ arrivals key l) :
    ∃ b ∈ l, key b = k ∧ (l.filter fun b => decide (key b = k)).getLast? = some b := by
  obtain ⟨c, hc, hkey⟩ := (mem_arrivals_iff l k).1 hk
  have hne : l.filter (fun b => decide (key b = k)) ≠ [] :=
    List.ne_nil_of_mem (List.mem_filter.2 ⟨hc, decide_eq_true hkey⟩)
  obtain ⟨hmem, hlast⟩ := List.mem_filter.1 (List.getLast_mem hne)
  exact ⟨_, hmem, of_decide_eq_true hlast, List.getLast?_eq_some_getLast hne⟩

/-! ## Regrouping -/

/-- The elements of a list, key by key. -/
def regroup (key : β → κ) (l : List β) : List β :=
  (arrivals key l).flatMap fun k => l.filter fun b => decide (key b = k)

/-- Elements with other keys do not matter for the groups of some keys. -/
theorem flatMap_filter_of_not_mem {ks : List κ} {k : κ} (hk : k ∉ ks) (l : List β) :
    (ks.flatMap fun j => l.filter fun b => decide (key b = j)) =
      ks.flatMap fun j =>
        (l.filter fun b => !decide (key b = k)).filter fun b => decide (key b = j) := by
  refine List.flatMap_congr fun j hj => ?_
  rw [List.filter_filter]
  refine List.filter_congr fun b _ => ?_
  by_cases hb : key b = j
  · have hne : j ≠ k := fun heq => hk (heq ▸ hj)
    simp [hb, hne]
  · simp [hb]

/-- Different keys that cover a list split it into groups. -/
theorem perm_flatMap_filter {ks : List κ} (hdistinct : ks.Nodup) {l : List β}
    (hcover : ∀ b ∈ l, key b ∈ ks) :
    (ks.flatMap fun k => l.filter fun b => decide (key b = k)).Perm l := by
  induction ks generalizing l with
  | nil =>
    cases l with
    | nil => exact .nil
    | cons b l => cases hcover b List.mem_cons_self
  | cons k ks ih =>
    rw [List.nodup_cons] at hdistinct
    rw [List.flatMap_cons, flatMap_filter_of_not_mem hdistinct.1]
    have hrest := ih (l := l.filter fun b => !decide (key b = k)) hdistinct.2 fun b hb => by
      obtain ⟨hmem, hne⟩ := List.mem_filter.1 hb
      exact (List.mem_cons.1 (hcover b hmem)).resolve_left (by simpa using hne)
    exact (hrest.append_left _).trans (List.filter_append_perm _ l)

/-- If nothing unwanted stands before something wanted, taking out what is wanted and then
the rest changes nothing. -/
theorem filter_append_filter_not {p : β → Bool} {l : List β}
    (hfirst : l.Pairwise fun b c => p c = true → p b = true) :
    l.filter p ++ l.filter (fun b => !p b) = l := by
  induction l with
  | nil => rfl
  | cons b l ih =>
    obtain ⟨hb, hrest⟩ := List.pairwise_cons.1 hfirst
    cases hp : p b with
    | true => rw [List.filter_cons_of_pos hp, List.filter_cons_of_neg (by simp [hp]),
        List.cons_append, ih hrest]
    | false =>
      have hnone : l.filter p = [] := by
        rw [List.filter_eq_nil_iff]
        intro c hc hpc
        rw [hb c hc hpc] at hp
        cases hp
      have hall : l.filter (fun b => !p b) = l := by simpa [hnone] using ih hrest
      rw [List.filter_cons_of_neg (by simp [hp]), List.filter_cons_of_pos (by simp [hp]), hnone,
        hall, List.nil_append]

/-- A list whose keys come in the order of the given keys is left as it is. -/
theorem flatMap_filter_eq_self {ks : List κ} (hdistinct : ks.Nodup) {l : List β}
    (hcover : ∀ b ∈ l, key b ∈ ks)
    (hsorted : l.Pairwise fun b c => ks.idxOf (key b) ≤ ks.idxOf (key c)) :
    (ks.flatMap fun k => l.filter fun b => decide (key b = k)) = l := by
  induction ks generalizing l with
  | nil =>
    cases l with
    | nil => rfl
    | cons b l => cases hcover b List.mem_cons_self
  | cons k ks ih =>
    rw [List.nodup_cons] at hdistinct
    have hfirst : l.Pairwise fun b c => decide (key c = k) = true → decide (key b = k) = true := by
      refine hsorted.imp fun {b c} hle hc => ?_
      rw [of_decide_eq_true hc, List.idxOf_cons_self, Nat.le_zero, List.idxOf_cons] at hle
      by_contra hne
      have hk : (k == key b) = false :=
        beq_eq_false_iff_ne.2 fun heq => hne (decide_eq_true heq.symm)
      simp [hk] at hle
    have hother : ∀ b ∈ l.filter fun b => !decide (key b = k), key b ≠ k := fun b hb => by
      simpa using (List.mem_filter.1 hb).2
    have hrest : (l.filter fun b => !decide (key b = k)).Pairwise
        fun b c => ks.idxOf (key b) ≤ ks.idxOf (key c) := by
      refine (hsorted.filter _).imp_of_mem fun {b c} hb hc hle => ?_
      have hbk : (k == key b) = false := beq_eq_false_iff_ne.2 (hother b hb).symm
      have hck : (k == key c) = false := beq_eq_false_iff_ne.2 (hother c hc).symm
      simpa [List.idxOf_cons, hbk, hck] using hle
    rw [List.flatMap_cons, flatMap_filter_of_not_mem hdistinct.1, ih hdistinct.2 ?_ hrest]
    · exact filter_append_filter_not hfirst
    · intro b hb
      exact (List.mem_cons.1 (hcover b (List.mem_filter.1 hb).1)).resolve_left (hother b hb)

theorem perm_regroup (key : β → κ) (l : List β) : (regroup key l).Perm l :=
  perm_flatMap_filter (nodup_arrivals key l) fun b hb => (mem_arrivals_iff l _).2 ⟨b, hb, rfl⟩

/-- Some elements of a regrouped list are regrouped by all keys. -/
theorem filter_regroup (key : β → κ) (p : β → Bool) (l : List β) :
    (regroup key l).filter p =
      (arrivals key l).flatMap fun k => (l.filter p).filter fun b => decide (key b = k) := by
  rw [regroup, List.filter_flatMap]
  refine List.flatMap_congr fun k _ => ?_
  rw [List.filter_filter, List.filter_filter]
  exact List.filter_congr fun b _ => Bool.and_comm _ _

/-! ## Merging -/

/-- One element for each key: the last one with this key, in the place of the first. -/
def merged (key : β → κ) (l : List β) : List β :=
  (arrivals key l).filterMap fun k => (l.filter fun b => decide (key b = k)).getLast?

theorem map_key_merged (key : β → κ) (l : List β) : (merged key l).map key = arrivals key l := by
  rw [merged, List.map_filterMap]
  refine (List.filterMap_congr fun k hk => ?_).trans List.filterMap_some
  obtain ⟨b, -, rfl, hlast⟩ := exists_getLast?_of_mem_arrivals hk
  rw [hlast]
  rfl

theorem merged_map {γ : Type} (key : β → κ) (f : γ → β) (l : List γ) :
    merged key (l.map f) = (merged (fun c => key (f c)) l).map f := by
  rw [merged, merged, List.map_filterMap, arrivals_map]
  refine List.filterMap_congr fun k _ => ?_
  rw [List.filter_map, List.getLast?_map]
  rfl

/-- The first element that is looked for by its key has the same key after merging. -/
theorem find?_arrivals (p : κ → Bool) (l : List β) :
    (arrivals key l).find? p = (l.map key).find? p := by
  induction l using List.reverseRecOn with
  | nil => rfl
  | append_singleton l b ih =>
    rw [List.map_append, List.find?_append, ← ih, arrivals_concat]
    split
    · rename_i hold
      cases hfind : (arrivals key l).find? p with
      | some k => rfl
      | none =>
        have hb : p (key b) = false := by simpa using List.find?_eq_none.1 hfind _ hold
        simp [hb]
    · rw [List.find?_append]
      rfl

/-! ## Filing -/

/-- A fold that begins with the first element. -/
theorem foldl_some {α γ : Type} (step : α → γ → α) (start : α) {l : List γ} (hl : l ≠ []) :
    l.foldl (fun a c => some (step (a.getD start) c)) none = some (l.foldl step start) := by
  induction l using List.reverseRecOn with
  | nil => exact absurd rfl hl
  | append_singleton l c ih =>
    rw [List.foldl_append, List.foldl_append]
    cases l with
    | nil => rfl
    | cons d l => rw [ih (List.cons_ne_nil d l)]; rfl

/-- A fold that adds at the end. -/
theorem foldl_concat {γ δ : Type} (value : γ → δ) (l : List γ) :
    l.foldl (fun vs c => vs ++ [value c]) [] = l.map value := by
  rw [List.foldl_append_eq_append, List.nil_append, ← List.flatMap_def, ← List.map_eq_flatMap]

namespace OrderedMap

variable {α : Type}

theorem toList_eq_filterMap (m : OrderedMap κ α) :
    m.toList = m.keys.filterMap fun k => (m.get? k).map fun a => (k, a) := by
  rw [keys, List.filterMap_map]
  refine ((List.filterMap_congr fun e he => ?_).trans List.filterMap_some).symm
  rw [Function.comp_apply, (get?_eq_some_iff m e.1 e.2).2 he]
  rfl

/-- Keys arrive as elements are filed under them. -/
theorem keys_foldl_upsert (key : β → κ) (step : β → Option α → α) (l : List β) :
    (l.foldl (fun m b => m.upsert (key b) (step b)) empty).keys = arrivals key l := by
  induction l using List.reverseRecOn with
  | nil => rfl
  | append_singleton l b ih =>
    rw [List.foldl_append, List.foldl_cons, List.foldl_nil, upsert, keys_insert, ih,
      arrivals_concat]

/-- A key holds what is made of the elements that were filed under it. -/
theorem get?_foldl_upsert (key : β → κ) (step : β → Option α → α) (l : List β) (k : κ) :
    (l.foldl (fun m b => m.upsert (key b) (step b)) empty).get? k =
      (l.filter fun b => decide (key b = k)).foldl (fun a b => some (step b a)) none := by
  induction l using List.reverseRecOn with
  | nil => rfl
  | append_singleton l b ih =>
    rw [List.foldl_append, List.foldl_cons, List.foldl_nil, get?_upsert, List.filter_append,
      List.foldl_append]
    by_cases hb : key b = k
    · subst hb
      simp [ih]
    · simp [hb, ih]

/-- Each key holds what is worked together from its elements. -/
theorem toList_foldl_upsert_eq_map (key : β → κ) (step : α → β → α) (start : α) (l : List β) :
    (l.foldl (fun m b => m.upsert (key b) fun a => step (a.getD start) b) empty).toList =
      (arrivals key l).map fun k =>
        (k, (l.filter fun b => decide (key b = k)).foldl step start) := by
  rw [toList_eq_filterMap, keys_foldl_upsert key fun b a => step (a.getD start) b,
    ← List.filterMap_eq_map]
  refine List.filterMap_congr fun k hk => ?_
  obtain ⟨b, -, -, hlast⟩ := exists_getLast?_of_mem_arrivals hk
  rw [get?_foldl_upsert key fun b a => step (a.getD start) b,
    foldl_some step start (List.ne_nil_of_mem (List.mem_of_getLast? hlast))]
  rfl

/-- Under a key stands what was filed under it, in order. -/
theorem toList_foldl_upsert_concat {γ : Type} (key : β → κ) (value : β → γ) (l : List β) :
    (l.foldl (fun m b => m.upsert (key b) fun vs => vs.getD [] ++ [value b]) empty).toList =
      (arrivals key l).map fun k => (k, (l.filter fun b => decide (key b = k)).map value) := by
  rw [toList_foldl_upsert_eq_map key fun vs b => vs ++ [value b]]
  simp only [foldl_concat]

/-- Entries that are written one after another are merged. -/
theorem toList_ofList_eq_merged (l : List (κ × α)) : (ofList l).toList = merged Prod.fst l := by
  have hlast : ∀ l : List (κ × α),
      l.foldl (fun _ e => some e.2) none = l.getLast?.map Prod.snd := by
    intro l
    induction l using List.reverseRecOn with
    | nil => rfl
    | append_singleton l e _ => simp
  rw [toList_eq_filterMap, ofList, insertMany, show
    (fun (m : OrderedMap κ α) (e : κ × α) => m.insert e.1 e.2) =
      fun m e => m.upsert e.1 ((fun e _ => e.2) e) from rfl, keys_foldl_upsert, merged]
  refine List.filterMap_congr fun k hk => ?_
  obtain ⟨e, -, rfl, he⟩ := exists_getLast?_of_mem_arrivals hk
  rw [get?_foldl_upsert, hlast, he]
  rfl

end OrderedMap

/-- Elements with different keys are left as they are. -/
theorem merged_eq_self {l : List β} (hdistinct : (l.map key).Nodup) : merged key l = l := by
  have hkeyed : ((l.map fun b => (key b, b)).map Prod.fst).Nodup := by
    rwa [List.map_map]
  have hlist := OrderedMap.toList_ofList_eq_merged (l.map fun b => (key b, b))
  rw [OrderedMap.toList_ofList hkeyed, merged_map] at hlist
  have hvalues := congrArg (List.map Prod.snd) hlist
  rw [List.map_map, List.map_map] at hvalues
  exact (by simpa [Function.comp_def] using hvalues.symm)

end StateGraph
