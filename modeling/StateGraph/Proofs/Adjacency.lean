import Mathlib.Data.List.Basic
import StateGraph.Adjacency
import StateGraph.Proofs.Maps
import StateGraph.Proofs.Results

set_option autoImplicit false

/-!
# What an adjacency keeps

Both ways of adding edges, one at a time (`link`) and all edges of a pair at once
(`addEntry`), write one key under one pair of nodes.  `Adjacency.record` is that
write; what it does to each index is proved once, and both ways inherit it.

`Adjacency.Sound` says that the two indexes fit the nodes and each other, and
`Adjacency.WellFormed` that the edge counter is right as well.  The write of a next key
would upset the counter if the key were not a word.  A pair of nodes whose `2 ^ 32` keys
are in use is full, and `link` adds an edge exactly if the pair is not (`link_eq`).
-/

namespace StateGraph

/-! ## Numbers as words -/

/-- A number below `2 ^ 32` is that of its word. -/
theorem toNat_toUInt32 {n : Nat} (hn : n < 2 ^ 32) : n.toUInt32.toNat = n :=
  UInt32.toNat_ofNat_of_lt' hn

/-- Numbers below `2 ^ 32` have different words. -/
theorem toUInt32_inj {m n : Nat} (hm : m < 2 ^ 32) (hn : n < 2 ^ 32)
    (heq : m.toUInt32 = n.toUInt32) : m = n := by
  rw [← toNat_toUInt32 hm, heq, toNat_toUInt32 hn]

namespace Adjacency

/-! ## Well-formed adjacencies -/

/-- The number of edges that the entries stand for. -/
def entryTotal (a : Adjacency) : Nat := (a.entries.map fun e => e.2.2.toNat + 1).sum

/-- The indexes refer to nodes that exist and agree with each other. -/
structure Sound (a : Adjacency) : Prop where
  /-- edges join nodes that exist -/
  endpoints : ∀ u v highest, (u, v, highest) ∈ a.entries → a.hasNode u = true ∧ a.hasNode v = true
  /-- no source is kept without targets -/
  inhabited : ∀ u ts, (u, ts) ∈ a.targets.toList → ts.toList ≠ []
  /-- no target is kept without sources -/
  sourced : ∀ v us, (v, us) ∈ a.sources.toList → us.toList ≠ []
  /-- the sources of a node are those with an edge to it, each listed once -/
  converse : ∀ u v, (a.predecessors v).count u = if (a.highestKey u v).isSome then 1 else 0

/-- The indexes are sound and the edges are counted correctly. -/
structure WellFormed (a : Adjacency) : Prop extends a.Sound where
  counter : a.edgeCount = a.entryTotal

/-! ## The entries -/

/-- Entries are listed exactly when there is a highest key. -/
theorem mem_entries_iff (a : Adjacency) (u v : NodeId) (highest : UInt32) :
    (u, v, highest) ∈ a.entries ↔ a.highestKey u v = some highest := by
  unfold entries highestKey
  rw [Option.bind_eq_some_iff]
  simp only [List.mem_flatMap, List.mem_map, Prod.exists, Prod.mk.injEq,
    OrderedMap.get?_eq_some_iff]
  constructor
  · rintro ⟨_, ts, hts, _, _, hmem, rfl, rfl, rfl⟩
    exact ⟨ts, hts, hmem⟩
  · rintro ⟨ts, hts, hmem⟩
    exact ⟨u, ts, hts, v, highest, hmem, rfl, rfl, rfl⟩

/-- The total is a sum over sources of sums over targets. -/
theorem entryTotal_eq_weigh (a : Adjacency) :
    a.entryTotal = a.targets.weigh fun ts => ts.weigh fun highest => highest.toNat + 1 := by
  unfold entryTotal entries OrderedMap.weigh OrderedMap.values OrderedMap.toList
  rw [List.map_flatMap]
  induction a.targets.entries with
  | nil => rfl
  | cons e l ih =>
    rw [List.flatMap_cons, List.sum_append, ih]
    simp [Function.comp_def]

theorem mem_predecessors_iff {a : Adjacency} (hsound : a.Sound) (u v : NodeId) :
    u ∈ a.predecessors v ↔ (a.highestKey u v).isSome = true := by
  rw [← List.count_pos_iff, hsound.converse u v]
  split <;> simp_all

/-! ## One write -/

/-- Writes a key under a pair of nodes and counts the edges that come with it. -/
def record (a : Adjacency) (u v : NodeId) (key : UInt32) (added : Nat) : Adjacency :=
  { a with
    edgeCount := a.edgeCount + added
    targets := a.targets.upsert u fun ts => (ts.getD .empty).insert v key
    sources := a.addSource u v }

/-- The key of the next edge from `u` to `v`. -/
def nextKey (a : Adjacency) (u v : NodeId) : UInt32 :=
  match a.highestKey u v with
  | some highest => highest + 1
  | none => 0

/-- One more edge from `u` to `v`. -/
def withEdge (a : Adjacency) (u v : NodeId) : Adjacency := a.record u v (a.nextKey u v) 1

/-- All `2 ^ 32` keys from `u` to `v` are in use. -/
def isFull (a : Adjacency) (u v : NodeId) : Bool := decide (a.highestKey u v = some 0xFFFFFFFF)

theorem nextKey?_eq (a : Adjacency) (u v : NodeId) :
    a.nextKey? u v = if a.isFull u v then none else some (a.nextKey u v) := by
  unfold nextKey? nextKey isFull
  cases a.highestKey u v with
  | none => rfl
  | some highest => simp [nextWord?_eq]

/-- An edge is added exactly if its pair is not full. -/
theorem link_eq (a : Adjacency) (u v : NodeId) :
    a.link u v = if a.isFull u v then none else some (a.withEdge u v, a.nextKey u v) := by
  unfold link
  rw [nextKey?_eq]
  cases a.isFull u v <;> rfl

theorem addEntry_eq_ok_iff (a b : Adjacency) (u v : NodeId) (highest : UInt32) :
    a.addEntry u v highest = .ok b ↔
      (a.hasNode u = true ∧ a.hasNode v = true) ∧ a.highestKey u v = none ∧
        b = a.record u v highest (highest.toNat + 1) := by
  unfold addEntry
  by_cases hnodes : (a.hasNode u && a.hasNode v) = true
  · cases hkey : a.highestKey u v with
    | none =>
      simp only [Bool.and_eq_true] at hnodes
      simp [hnodes, record, eq_comm]
    | some taken =>
      rw [if_pos hnodes]
      simp
  · simp only [hnodes, Bool.false_eq_true, if_false, reduceCtorEq, false_iff]
    rintro ⟨hboth, -⟩
    exact hnodes (by simp [hboth])

@[simp] theorem edgeCount_record (a : Adjacency) (u v : NodeId) (key : UInt32) (added : Nat) :
    (a.record u v key added).edgeCount = a.edgeCount + added := rfl

/-- The written pair has the written key, and every other pair the key it had. -/
theorem highestKey_record (a : Adjacency) (u v : NodeId) (key : UInt32) (added : Nat)
    (x y : NodeId) :
    (a.record u v key added).highestKey x y =
      if u = x ∧ v = y then some key else a.highestKey x y := by
  unfold highestKey record
  simp only [OrderedMap.get?_upsert]
  by_cases hux : u = x
  · subst hux
    by_cases hvy : v = y
    · simp [hvy]
    · cases hts : a.targets.get? u with
      | none => simp [hvy]
      | some ts => simp [hvy]
  · simp [hux]

/-- The written source is new among those of the written target only. -/
theorem mem_predecessors_record (a : Adjacency) (u v : NodeId) (key : UInt32) (added : Nat)
    (x y : NodeId) :
    x ∈ (a.record u v key added).predecessors y ↔ x ∈ a.predecessors y ∨ (x = u ∧ y = v) := by
  unfold predecessors record addSource
  simp only [OrderedMap.get?_upsert]
  by_cases hvy : v = y
  · subst hvy
    cases hs : a.sources.get? v with
    | none => simp [OrderedSet.toList, OrderedSet.empty]
    | some s => simp [OrderedSet.toList]
  · simp [hvy, Ne.symm hvy]

theorem nodup_predecessors (a : Adjacency) (v : NodeId) : (a.predecessors v).Nodup := by
  unfold predecessors
  split
  · rename_i s hs
    exact s.distinct
  · exact List.nodup_nil

/-- The total grows by the edges of the new key and loses those of the old one. -/
theorem entryTotal_record (a : Adjacency) (u v : NodeId) (key : UInt32) (added : Nat) :
    (a.record u v key added).entryTotal +
        (a.highestKey u v).elim 0 (fun highest => highest.toNat + 1) =
      a.entryTotal + (key.toNat + 1) := by
  rw [entryTotal_eq_weigh, entryTotal_eq_weigh]
  unfold record highestKey OrderedMap.upsert
  have houter := OrderedMap.weigh_insert
    (fun ts : OrderedMap NodeId UInt32 => ts.weigh fun highest => highest.toNat + 1) a.targets u
    (((a.targets.get? u).getD .empty).insert v key)
  have hinner := OrderedMap.weigh_insert (fun highest : UInt32 => highest.toNat + 1)
    ((a.targets.get? u).getD .empty) v key
  cases hts : a.targets.get? u with
  | none =>
    simp only [hts, Option.getD_none, Option.elim_none, OrderedMap.get?_empty,
      OrderedMap.weigh_empty, Option.bind_none] at houter hinner ⊢
    omega
  | some ts =>
    simp only [hts, Option.getD_some, Option.elim_some, Option.bind_some] at houter hinner ⊢
    omega

/-- A write between nodes that exist keeps the indexes sound. -/
theorem Sound.record {a : Adjacency} (hsound : a.Sound) {u v : NodeId} (hu : a.hasNode u = true)
    (hv : a.hasNode v = true) (key : UInt32) (added : Nat) : (a.record u v key added).Sound where
  endpoints x y highest hmem := by
    rw [mem_entries_iff, highestKey_record] at hmem
    split at hmem
    · rename_i hpair
      rw [← hpair.1, ← hpair.2]
      exact ⟨hu, hv⟩
    · exact hsound.endpoints x y highest ((mem_entries_iff a x y highest).2 hmem)
  inhabited x ts hmem := by
    rcases OrderedMap.mem_of_mem_insert hmem with heq | hold
    · cases heq
      intro hnil
      have hv' : v ∈ (((a.targets.get? u).getD .empty).insert v key).keys :=
        (OrderedMap.mem_keys_insert _ _ _ _).2 (.inl rfl)
      rw [OrderedMap.keys, show OrderedMap.entries _ = [] from hnil] at hv'
      cases hv'
    · exact hsound.inhabited x ts hold
  sourced y us hmem := by
    rcases OrderedMap.mem_of_mem_insert hmem with heq | hold
    · cases heq
      intro hnil
      have hu' : u ∈ (((a.sources.get? v).getD .empty).insert u).members :=
        (OrderedSet.mem_insert _ _ _).2 (.inr rfl)
      rw [show OrderedSet.members _ = [] from hnil] at hu'
      cases hu'
    · exact hsound.sourced y us hold
  converse x y := by
    have hnodup := nodup_predecessors (a.record u v key added) y
    rw [hnodup.count, highestKey_record]
    simp only [mem_predecessors_record, mem_predecessors_iff hsound]
    by_cases hpair : u = x ∧ v = y
    · simp [hpair]
    · have hother : ¬ (x = u ∧ y = v) := fun h => hpair ⟨h.1.symm, h.2.symm⟩
      simp [hpair, hother]

/-! ## Adding nodes -/

theorem wellFormed_isolated (nodeCount : UInt32) : (isolated nodeCount).WellFormed where
  endpoints u v highest hmem := by cases hmem
  inhabited u ts hmem := by cases hmem
  sourced v us hmem := by cases hmem
  converse u v := rfl
  counter := rfl

/-- More nodes keep the indexes sound. -/
theorem Sound.grow {a b : Adjacency} (hsound : a.Sound) (htargets : b.targets = a.targets)
    (hsources : b.sources = a.sources) (hnodes : ∀ n, a.hasNode n = true → b.hasNode n = true) :
    b.Sound where
  endpoints u v highest hmem := by
    have hold : (u, v, highest) ∈ a.entries := by
      rwa [entries, htargets] at hmem
    obtain ⟨hu, hv⟩ := hsound.endpoints u v highest hold
    exact ⟨hnodes u hu, hnodes v hv⟩
  inhabited u ts hmem := hsound.inhabited u ts (htargets ▸ hmem)
  sourced v us hmem := hsound.sourced v us (hsources ▸ hmem)
  converse u v := by
    unfold predecessors highestKey
    rw [htargets, hsources]
    exact hsound.converse u v

theorem addNodes_eq_ok_iff (a b : Adjacency) (count : UInt32) (span : NodeSpan) :
    a.addNodes count = .ok (b, span) ↔
      a.nodeCount.toNat + count.toNat < 2 ^ 32 ∧
        b = { a with nodeCount := a.nodeCount + count } ∧
        span = ⟨a.nodeCount, a.nodeCount + count⟩ := by
  unfold addNodes
  split
  · rename_i hfits
    simp only [Except.ok.injEq, Prod.mk.injEq]
    exact ⟨fun h => ⟨hfits, h.1.symm, h.2.symm⟩, fun h => ⟨h.2.1.symm, h.2.2.symm⟩⟩
  · rename_i hfits
    refine ⟨fun h => ?_, fun h => absurd h.1 hfits⟩
    cases h

theorem hasNode_iff (a : Adjacency) (n : NodeId) :
    a.hasNode n = true ↔ n.index.toNat < a.nodeCount.toNat := by
  rw [hasNode, decide_eq_true_eq, UInt32.lt_iff_toNat_lt]

/-- The node count after nodes were added, as a number. -/
theorem toNat_nodeCount_add {a : Adjacency} {count : UInt32}
    (hfits : a.nodeCount.toNat + count.toNat < 2 ^ 32) :
    (a.nodeCount + count).toNat = a.nodeCount.toNat + count.toNat := by
  rw [UInt32.toNat_add, Nat.mod_eq_of_lt hfits]

/-! ## Adding edges one at a time -/

/-- The number of keys in use from `u` to `v`. -/
def keyCount (a : Adjacency) (u v : NodeId) : Nat :=
  match a.highestKey u v with
  | some highest => highest.toNat + 1
  | none => 0

/-- A pair is full if no key is left. -/
theorem isFull_eq_false_iff (a : Adjacency) (u v : NodeId) :
    a.isFull u v = false ↔ a.keyCount u v < 2 ^ 32 := by
  unfold isFull keyCount
  cases a.highestKey u v with
  | none => simp
  | some highest =>
    have hbound := highest.toNat_lt
    have hmax : (0xFFFFFFFF : UInt32).toNat = 2 ^ 32 - 1 := rfl
    rw [decide_eq_false_iff_not, Option.some_inj, ← UInt32.toNat_inj, hmax]
    show _ ↔ highest.toNat + 1 < 2 ^ 32
    omega

theorem keyCount_le (a : Adjacency) (u v : NodeId) : a.keyCount u v ≤ 2 ^ 32 := by
  unfold keyCount
  split
  · exact Nat.succ_le_of_lt (UInt32.toNat_lt _)
  · exact Nat.zero_le _

/-- The next key of a pair that is not full is the number of its edges. -/
theorem toNat_nextKey {a : Adjacency} {u v : NodeId} (hfull : a.isFull u v = false) :
    (a.nextKey u v).toNat = a.keyCount u v := by
  have hroom := (isFull_eq_false_iff a u v).1 hfull
  unfold nextKey
  unfold keyCount at hroom ⊢
  cases hkey : a.highestKey u v with
  | none => rfl
  | some highest =>
    rw [hkey] at hroom
    simp only [UInt32.toNat_add]
    exact Nat.mod_eq_of_lt hroom

/-- The number of edges is a word unless the pair is full. -/
theorem multiplicity_eq (a : Adjacency) (u v : NodeId) :
    a.multiplicity u v = if a.isFull u v then none else some (a.keyCount u v).toUInt32 := by
  have hsame : a.multiplicity u v = a.nextKey? u v := rfl
  rw [hsame, nextKey?_eq]
  cases hfull : a.isFull u v with
  | true => rfl
  | false =>
    rw [← toNat_nextKey hfull]
    simp

/-- One more edge of a pair that is not full raises the total by one. -/
theorem entryTotal_withEdge {a : Adjacency} {u v : NodeId} (hfull : a.isFull u v = false) :
    (a.withEdge u v).entryTotal = a.entryTotal + 1 := by
  have htotal := entryTotal_record a u v (a.nextKey u v) 1
  rw [toNat_nextKey hfull] at htotal
  show (a.record u v (a.nextKey u v) 1).entryTotal = _
  cases hkey : a.highestKey u v with
  | none =>
    simp only [hkey, keyCount, Option.elim_none] at htotal
    simpa using htotal
  | some highest =>
    simp only [hkey, keyCount, Option.elim_some] at htotal
    omega

/-- One more edge of a pair that is not full keeps an adjacency well-formed. -/
theorem WellFormed.withEdge {a : Adjacency} (hwell : a.WellFormed) {u v : NodeId}
    (hu : a.hasNode u = true) (hv : a.hasNode v = true) (hfull : a.isFull u v = false) :
    (a.withEdge u v).WellFormed :=
  ⟨hwell.toSound.record hu hv _ 1, by
    rw [entryTotal_withEdge hfull, ← hwell.counter]
    rfl⟩

/-- An edge exists if its key is at most the highest one of its pair. -/
theorem hasEdge_iff (a : Adjacency) (e : EdgeId) :
    a.hasEdge e = true ↔
      ∃ highest, a.highestKey e.source e.target = some highest ∧ e.key ≤ highest := by
  unfold hasEdge
  cases a.highestKey e.source e.target <;> simp

/-- The edge that was just added exists. -/
theorem hasEdge_withEdge_self (a : Adjacency) (u v : NodeId) :
    (a.withEdge u v).hasEdge ⟨u, v, a.nextKey u v⟩ = true := by
  rw [hasEdge_iff, withEdge]
  exact ⟨a.nextKey u v, by simp [highestKey_record], UInt32.le_refl _⟩

/-- Edges stay when an edge is added to a pair that is not full. -/
theorem hasEdge_withEdge_of_hasEdge {a : Adjacency} {u v : NodeId} (hfull : a.isFull u v = false)
    {e : EdgeId} (he : a.hasEdge e = true) : (a.withEdge u v).hasEdge e = true := by
  rw [hasEdge_iff] at he ⊢
  obtain ⟨highest, hkey, hle⟩ := he
  rw [withEdge]
  simp only [highestKey_record]
  by_cases hpair : u = e.source ∧ v = e.target
  · refine ⟨a.nextKey u v, by simp [hpair], ?_⟩
    have hnext := toNat_nextKey hfull
    rw [hpair.1, hpair.2, keyCount, hkey] at hnext
    rw [UInt32.le_iff_toNat_le] at hle ⊢
    rw [hpair.1, hpair.2, hnext]
    exact Nat.le_succ_of_le hle
  · exact ⟨highest, by simp [hpair, hkey], hle⟩

/-! ## Keys and their number -/

/-- The keys from one node to another are those below their number. -/
theorem hasEdge_iff_lt_keyCount (a : Adjacency) (e : EdgeId) :
    a.hasEdge e = true ↔ e.key.toNat < a.keyCount e.source e.target := by
  rw [hasEdge_iff, keyCount]
  cases a.highestKey e.source e.target with
  | none => simp
  | some highest =>
    simp only [Option.some.injEq, exists_eq_left']
    rw [UInt32.le_iff_toNat_le, Nat.lt_succ_iff]

theorem mem_keysUpTo_iff (highest k : UInt32) : k ∈ keysUpTo highest ↔ k ≤ highest := by
  have hbound := highest.toNat_lt
  rw [keysUpTo, List.mem_map, UInt32.le_iff_toNat_le]
  constructor
  · rintro ⟨i, hi, rfl⟩
    have hlt := List.mem_range.1 hi
    rw [toNat_toUInt32 (by omega)]
    omega
  · intro hle
    exact ⟨k.toNat, List.mem_range.2 (by omega), by simp⟩

/-- The edges are listed entry by entry. -/
theorem edges_eq_flatMap_entries (a : Adjacency) :
    a.edges = a.entries.flatMap fun entry =>
      (keysUpTo entry.2.2).map fun k => ⟨entry.1, entry.2.1, k⟩ := by
  rw [entries, List.flatMap_assoc, edges]
  simp only [List.flatMap_map, edgesTo]

/-- The list of edges holds the edges that exist. -/
theorem mem_edges_iff (a : Adjacency) (e : EdgeId) : e ∈ a.edges ↔ a.hasEdge e = true := by
  rw [edges_eq_flatMap_entries, List.mem_flatMap, hasEdge_iff]
  constructor
  · rintro ⟨entry, hentry, hmem⟩
    obtain ⟨k, hk, rfl⟩ := List.mem_map.1 hmem
    exact ⟨entry.2.2, (mem_entries_iff a _ _ _).1 hentry, (mem_keysUpTo_iff _ k).1 hk⟩
  · rintro ⟨highest, hkey, hle⟩
    refine ⟨(e.source, e.target, highest), (mem_entries_iff a _ _ _).2 hkey, ?_⟩
    exact List.mem_map.2 ⟨e.key, (mem_keysUpTo_iff _ _).2 hle, rfl⟩

/-! ## Edges from a node -/

/-- A target that is written goes to the end of the successors, unless it is one already. -/
theorem successors_record (a : Adjacency) (u v : NodeId) (key : UInt32) (added : Nat) (n : NodeId) :
    (a.record u v key added).successors n =
      if u = n then (if v ∈ a.successors n then a.successors n else a.successors n ++ [v])
      else a.successors n := by
  unfold successors record
  simp only [OrderedMap.get?_upsert]
  by_cases hu : u = n
  · subst hu
    rw [if_pos rfl, if_pos rfl]
    cases a.targets.get? u with
    | none => rfl
    | some ts => exact OrderedMap.keys_insert ts v key
  · rw [if_neg hu, if_neg hu]

/-- The edges from a node are listed by target and key. -/
theorem outEdges_eq_flatMap (a : Adjacency) (n : NodeId) :
    a.outEdges n = (a.successors n).flatMap fun v =>
      (List.range (a.keyCount n v)).map fun k => ⟨n, v, k.toUInt32⟩ := by
  unfold outEdges successors keyCount highestKey
  cases a.targets.get? n with
  | none => rfl
  | some ts =>
    show edgesTo n ts = ts.keys.flatMap _
    rw [edgesTo, OrderedMap.keys, List.flatMap_map]
    refine List.flatMap_congr fun e he => ?_
    have hget : ts.get? e.1 = some e.2 := (OrderedMap.get?_eq_some_iff ts e.1 e.2).2 he
    show (keysUpTo e.2).map _ = _
    rw [Option.bind_some, hget, keysUpTo, List.map_map]
    rfl

/-- A new edge is one more edge of its pair. -/
theorem keyCount_withEdge {a : Adjacency} {u v : NodeId} (hfull : a.isFull u v = false)
    (x y : NodeId) :
    (a.withEdge u v).keyCount x y =
      if u = x ∧ v = y then a.keyCount u v + 1 else a.keyCount x y := by
  rw [withEdge, keyCount]
  simp only [highestKey_record]
  by_cases hpair : u = x ∧ v = y
  · obtain ⟨rfl, rfl⟩ := hpair
    simp [toNat_nextKey hfull]
  · simp [hpair, keyCount]

/-! ## Adding all edges of a pair at once -/

/-- A new entry keeps an adjacency well-formed. -/
theorem WellFormed.addEntry {a b : Adjacency} (hwell : a.WellFormed) {u v : NodeId}
    {highest : UInt32} (hadd : a.addEntry u v highest = .ok b) : b.WellFormed := by
  obtain ⟨⟨hu, hv⟩, hnone, rfl⟩ := (addEntry_eq_ok_iff a b u v highest).1 hadd
  refine ⟨hwell.toSound.record hu hv highest _, ?_⟩
  have htotal := entryTotal_record a u v highest (highest.toNat + 1)
  rw [hnone, Option.elim_none, Nat.add_zero] at htotal
  rw [edgeCount_record, hwell.counter, htotal]

/-- Whatever entries an adjacency is made of, it is well-formed if it is made at
all. -/
theorem wellFormed_ofEntries {nodeCount : UInt32} {entries : List (NodeId × NodeId × UInt32)}
    {a : Adjacency} (hmade : ofEntries nodeCount entries = .ok a) : a.WellFormed :=
  foldlM_keeps (fun _ _ _ hwell hadd => hwell.addEntry hadd) entries
    (wellFormed_isolated nodeCount) hmade

end Adjacency

end StateGraph
