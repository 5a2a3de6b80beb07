import Mathlib.Data.List.Nodup
import StateGraph.Proofs.Adjacency

set_option autoImplicit false

/-!
# Spans consumed from both ends

The ends of a span move towards each other as nodes are taken there.  `NodeSpan.toList` is
what is left: a node that is taken at an end comes off that end of the list, and nothing can
be taken only when nothing is left (`NodeSpan.toList_pop`).  So in whatever order the ends
take turns, what was taken at the front, what is left, and what was taken at the back, the
last one first, are all nodes of the span in their order (`NodeSpan.consumed`).

The bounds are 32-bit words.  An end moves only while the bounds are apart, so neither word
wraps around, even if the span ends with the last number that a word has.
-/

namespace StateGraph

/-- The ends of a span. -/
inductive SpanEnd where
  | front
  | back
  deriving DecidableEq, Repr

namespace NodeSpan

/-! ## The nodes of a span -/

/-- The nodes of a span are those within its bounds. -/
theorem mem_toList_iff (s : NodeSpan) (n : NodeId) : n ∈ s.toList ↔ s.contains n = true := by
  have hstop := s.stop.toNat_lt
  rw [toList, List.mem_map, contains, Bool.and_eq_true, decide_eq_true_eq, decide_eq_true_eq,
    UInt32.le_iff_toNat_le, UInt32.lt_iff_toNat_lt]
  constructor
  · rintro ⟨i, hi, rfl⟩
    have hlt : i < s.stop.toNat - s.start.toNat := List.mem_range.1 hi
    rw [toNat_toUInt32 (by omega)]
    omega
  · rintro ⟨hfrom, hto⟩
    refine ⟨n.index.toNat - s.start.toNat, List.mem_range.2 ?_, ?_⟩
    · show _ < s.stop.toNat - s.start.toNat
      omega
    · rw [Nat.add_sub_cancel' hfrom, Nat.toUInt32, UInt32.ofNat_toNat]

/-- The numbers of the nodes are those from the start up to the stop. -/
theorem map_index_toList (s : NodeSpan) : (s.toList.map fun n => n.index.toNat) =
    List.range' s.start.toNat (s.stop.toNat - s.start.toNat) := by
  have hstop := s.stop.toNat_lt
  rw [toList, List.map_map, List.range'_eq_map_range, size]
  refine List.map_congr_left fun i hi => ?_
  have hlt : i < s.stop.toNat - s.start.toNat := List.mem_range.1 hi
  exact toNat_toUInt32 (by omega)

/-- No node is listed twice: the numbers of a span stay below `2 ^ 32`. -/
theorem nodup_toList (s : NodeSpan) : s.toList.Nodup := by
  refine List.Nodup.of_map (fun n => n.index.toNat) ?_
  rw [map_index_toList]
  exact List.nodup_range'

theorem length_toList (s : NodeSpan) : s.toList.length = s.size := by
  rw [toList, List.length_map, List.length_range]

theorem isEmpty_iff (s : NodeSpan) : s.isEmpty = true ↔ s.toList = [] := by
  rw [← List.length_eq_zero_iff, length_toList, isEmpty, decide_eq_true_eq,
    UInt32.le_iff_toNat_le, size]
  exact Nat.sub_eq_zero_iff_le.symm

/-- Nodes are those of a span if their numbers are. -/
theorem eq_toList_of_map {s : NodeSpan} {l : List NodeId}
    (hnumbers : (l.map fun n => n.index.toNat) =
      List.range' s.start.toNat (s.stop.toNat - s.start.toNat)) : l = s.toList := by
  have hinjective : Function.Injective fun n : NodeId => n.index.toNat := by
    intro m n heq
    exact congrArg NodeId.mk (UInt32.toNat_inj.1 heq)
  exact hinjective.list_map (hnumbers.trans s.map_index_toList.symm)

/-! ## The ends -/

/-- The start moves without wrapping around. -/
theorem toNat_start_add_one {s : NodeSpan} (hsome : s.start < s.stop) :
    s.start.toNat + 1 < 2 ^ 32 ∧ (s.start + 1).toNat = s.start.toNat + 1 := by
  have hstop := s.stop.toNat_lt
  rw [UInt32.lt_iff_toNat_lt] at hsome
  have hfits : s.start.toNat + 1 < 2 ^ 32 := by omega
  refine ⟨hfits, ?_⟩
  rw [UInt32.toNat_add, UInt32.toNat_one, Nat.mod_eq_of_lt hfits]

/-- The stop moves without wrapping around. -/
theorem toNat_stop_sub_one {s : NodeSpan} (hsome : s.start < s.stop) :
    0 < s.stop.toNat ∧ (s.stop - 1).toNat = s.stop.toNat - 1 := by
  rw [UInt32.lt_iff_toNat_lt] at hsome
  refine ⟨Nat.zero_lt_of_lt hsome, UInt32.toNat_sub_of_le _ _ ?_⟩
  rw [UInt32.le_iff_toNat_le, UInt32.toNat_one]
  omega

/-- A span that is not empty begins with its start. -/
theorem toList_of_lt {s : NodeSpan} (hsome : s.start < s.stop) :
    s.toList = ⟨s.start⟩ :: NodeSpan.toList ⟨s.start + 1, s.stop⟩ := by
  refine (eq_toList_of_map ?_).symm
  have hlt := UInt32.lt_iff_toNat_lt.1 hsome
  have hsize : s.stop.toNat - s.start.toNat = s.stop.toNat - (s.start.toNat + 1) + 1 := by omega
  rw [List.map_cons, map_index_toList, (toNat_start_add_one hsome).2, hsize, List.range'_succ]

/-- A span that is not empty ends with the node before its stop. -/
theorem toList_of_lt_stop {s : NodeSpan} (hsome : s.start < s.stop) :
    s.toList = NodeSpan.toList ⟨s.start, s.stop - 1⟩ ++ [⟨s.stop - 1⟩] := by
  refine (eq_toList_of_map ?_).symm
  have hlt := UInt32.lt_iff_toNat_lt.1 hsome
  have hsize : s.stop.toNat - s.start.toNat = s.stop.toNat - 1 - s.start.toNat + 1 := by omega
  have hlast : s.stop.toNat - 1 = s.start.toNat + (s.stop.toNat - 1 - s.start.toNat) := by omega
  rw [List.map_append, map_index_toList, hsize, List.range'_1_concat, List.map_singleton,
    (toNat_stop_sub_one hsome).2, ← hlast]

/-- Takes the node at an end. -/
def pop (s : NodeSpan) : SpanEnd → Option NodeId × NodeSpan
  | .front => s.popFront
  | .back => s.popBack

/-- The nodes that were taken at an end, in the order in which they were taken, if each answer
comes with the end that was asked. -/
def takenAt (e : SpanEnd) (answers : List (SpanEnd × Option NodeId)) : List NodeId :=
  (answers.filter fun a => a.1 = e).filterMap Prod.snd

theorem takenAt_cons (e : SpanEnd) (a : SpanEnd × Option NodeId)
    (answers : List (SpanEnd × Option NodeId)) :
    takenAt e (a :: answers) = takenAt e [a] ++ takenAt e answers := by
  rw [takenAt, takenAt, takenAt, ← List.filterMap_append, ← List.filter_append,
    List.singleton_append]

/-- What is taken at an end comes off that end of the list. -/
theorem toList_pop (s : NodeSpan) (e : SpanEnd) :
    takenAt .front [(e, (s.pop e).1)] ++ (s.pop e).2.toList ++
      (takenAt .back [(e, (s.pop e).1)]).reverse = s.toList := by
  by_cases hsome : s.start < s.stop
  · cases e with
    | front =>
      rw [pop, popFront, if_pos hsome, toList_of_lt hsome]
      exact List.append_nil _
    | back =>
      rw [pop, popBack, if_pos hsome, toList_of_lt_stop hsome]
      rfl
  · cases e with
    | front =>
      rw [pop, popFront, if_neg hsome]
      exact List.append_nil _
    | back =>
      rw [pop, popBack, if_neg hsome]
      exact List.append_nil _

/-- Either end gives a node as long as the bounds are apart. -/
theorem isSome_pop_iff (s : NodeSpan) (e : SpanEnd) :
    (s.pop e).1.isSome = true ↔ s.start < s.stop := by
  cases e with
  | front => by_cases hsome : s.start < s.stop <;> simp [pop, popFront, hsome]
  | back => by_cases hsome : s.start < s.stop <;> simp [pop, popBack, hsome]

/-- An end gives nothing only if nothing is left. -/
theorem pop_eq_none_iff (s : NodeSpan) (e : SpanEnd) : (s.pop e).1 = none ↔ s.toList = [] := by
  rw [← Option.not_isSome_iff_eq_none, isSome_pop_iff, ← isEmpty_iff, isEmpty, decide_eq_true_eq,
    UInt32.not_lt]

/-! ## Both ends, over and over -/

/-- Takes nodes at ends, one after another: each end with what it gave, and the span that is
left. -/
def popEach (s : NodeSpan) : List SpanEnd → List (SpanEnd × Option NodeId) × NodeSpan
  | [] => ([], s)
  | e :: es => ((e, (s.pop e).1) :: ((s.pop e).2.popEach es).1, ((s.pop e).2.popEach es).2)

/-- However the ends take turns, nothing is lost and nothing changes its place. -/
theorem toList_popEach (s : NodeSpan) (es : List SpanEnd) :
    takenAt .front (s.popEach es).1 ++ (s.popEach es).2.toList ++
      (takenAt .back (s.popEach es).1).reverse = s.toList := by
  induction es generalizing s with
  | nil => exact List.append_nil _
  | cons e es ih =>
    rw [← toList_pop s e, ← ih (s.pop e).2, popEach, takenAt_cons .front, takenAt_cons .back,
      List.reverse_append]
    simp only [List.append_assoc]

/-- What was taken at all is what was taken at the one end or at the other. -/
theorem perm_takenAt (answers : List (SpanEnd × Option NodeId)) :
    (takenAt .front answers ++ takenAt .back answers).Perm (answers.filterMap Prod.snd) := by
  have hback : (answers.filter fun a => a.1 = .back) =
      answers.filter fun a => !decide (a.1 = .front) := by
    refine List.filter_congr fun a _ => ?_
    cases a.1 <;> rfl
  rw [takenAt, takenAt, hback, ← List.filterMap_append]
  exact (List.filter_append_perm _ answers).filterMap _

/-- Nodes are taken as long as there are any. -/
theorem length_taken_add_size (s : NodeSpan) (es : List SpanEnd) :
    ((s.popEach es).1.filterMap Prod.snd).length + (s.popEach es).2.size = s.size := by
  have hall := congrArg List.length (s.toList_popEach es)
  have htaken := (perm_takenAt (s.popEach es).1).length_eq
  simp only [List.length_append, List.length_reverse, length_toList] at hall htaken
  omega

/-- Once nothing is left, neither end gives anything again. -/
theorem popEach_of_toList_eq_nil {s : NodeSpan} (hnone : s.toList = []) (es : List SpanEnd) :
    ∀ a ∈ (s.popEach es).1, a.2 = none := by
  have hlength := s.length_taken_add_size es
  rw [← s.length_toList, hnone, List.length_nil] at hlength
  have htaken : (s.popEach es).1.filterMap Prod.snd = [] :=
    List.length_eq_zero_iff.1 (Nat.eq_zero_of_add_eq_zero_right hlength)
  exact List.filterMap_eq_nil_iff.1 htaken

theorem size_pop (s : NodeSpan) (e : SpanEnd) : (s.pop e).2.size = s.size - 1 := by
  by_cases hsome : s.start < s.stop
  · cases e with
    | front =>
      rw [pop, popFront, if_pos hsome, size, size, (toNat_start_add_one hsome).2, Nat.sub_sub]
    | back =>
      rw [pop, popBack, if_pos hsome, size, size, (toNat_stop_sub_one hsome).2, Nat.sub_right_comm]
  · have hsize : s.size = 0 := by
      rw [UInt32.not_lt, UInt32.le_iff_toNat_le] at hsome
      exact Nat.sub_eq_zero_of_le hsome
    cases e with
    | front => rw [pop, popFront, if_neg hsome, hsize]
    | back => rw [pop, popBack, if_neg hsome, hsize]

theorem size_popEach (s : NodeSpan) (es : List SpanEnd) :
    (s.popEach es).2.size = s.size - es.length := by
  induction es generalizing s with
  | nil => rfl
  | cons e es ih => rw [popEach, ih, size_pop, List.length_cons, Nat.sub_sub, Nat.add_comm]

theorem map_fst_popEach (s : NodeSpan) (es : List SpanEnd) :
    (s.popEach es).1.map Prod.fst = es := by
  induction es generalizing s with
  | nil => rfl
  | cons e es ih => rw [popEach, List.map_cons, ih]

/-- An end that is not asked gives nothing. -/
theorem takenAt_of_not_mem (s : NodeSpan) {e : SpanEnd} {es : List SpanEnd} (he : e ∉ es) :
    takenAt e (s.popEach es).1 = [] := by
  have hnone : ((s.popEach es).1.filter fun a => a.1 = e) = [] := by
    refine List.filter_eq_nil_iff.2 fun a ha heq => he ?_
    rw [← s.map_fst_popEach es, ← of_decide_eq_true heq]
    exact List.mem_map_of_mem ha
  rw [takenAt, hnone, List.filterMap_nil]

/-- Either end alone gives all that is left, the front in order and the back backwards. -/
theorem takenAt_popEach_replicate {s : NodeSpan} {n : Nat} (hn : s.size ≤ n) :
    takenAt .front (s.popEach (List.replicate n .front)).1 = s.toList ∧
      takenAt .back (s.popEach (List.replicate n .back)).1 = s.toList.reverse := by
  have hrest : ∀ e, (s.popEach (List.replicate n e)).2.toList = [] := by
    intro e
    rw [← List.length_eq_zero_iff, length_toList, size_popEach, List.length_replicate]
    exact Nat.sub_eq_zero_of_le hn
  have hother : ∀ {e e' : SpanEnd}, e ≠ e' → takenAt e (s.popEach (List.replicate n e')).1 = [] :=
    fun hne => s.takenAt_of_not_mem fun hmem => hne (List.eq_of_mem_replicate hmem)
  constructor
  · rw [← s.toList_popEach (List.replicate n .front), hrest,
      hother (by decide : SpanEnd.back ≠ .front),
      List.append_nil, List.reverse_nil, List.append_nil]
  · rw [← s.toList_popEach (List.replicate n .back), hrest,
      hother (by decide : SpanEnd.front ≠ .back),
      List.nil_append, List.nil_append, List.reverse_reverse]

/-! ## Spans that are consumed -/

/-- What becomes of a span when nodes are taken at its ends in the given order; `answers` is
what the ends gave and `rest` is what is left. -/
structure Consumed (s : NodeSpan) (answers : List (SpanEnd × Option NodeId)) (rest : NodeSpan) :
    Prop where
  /-- all numbers of the span, in order -/
  order : ((takenAt .front answers ++ rest.toList ++ (takenAt .back answers).reverse).map
    fun n => n.index.toNat) = List.range' s.start.toNat (s.stop.toNat - s.start.toNat)
  /-- no node is taken twice, and none that was taken is left -/
  distinct : (answers.filterMap Prod.snd ++ rest.toList).Nodup
  /-- what is left is what the front would go on to give -/
  onward : ∀ n, rest.size ≤ n →
    takenAt .front (rest.popEach (List.replicate n .front)).1 = rest.toList
  /-- what is left is what the back would go on to give, backwards -/
  backward : ∀ n, rest.size ≤ n →
    takenAt .back (rest.popEach (List.replicate n .back)).1 = rest.toList.reverse
  /-- an end gives a node as long as one is left -/
  gives : ∀ e, (rest.pop e).1 = none ↔ rest.toList = []
  count : (answers.filterMap Prod.snd).length + rest.toList.length =
    s.stop.toNat - s.start.toNat
  /-- after as many nodes as there were, neither end gives anything -/
  ended : (answers.filterMap Prod.snd).length = s.stop.toNat - s.start.toNat →
    ∀ es, ∀ a ∈ (rest.popEach es).1, a.2 = none
  size : rest.size = rest.toList.length
  isEmpty : rest.isEmpty = true ↔ rest.toList = []
  contains : ∀ n, rest.contains n = true ↔ n ∈ rest.toList
  /-- the start stays a word when it moves, and only it moves -/
  frontMoves : ∀ n, (rest.pop .front).1 = some n → rest.start.toNat + 1 < 2 ^ 32 ∧
    (rest.pop .front).2.start.toNat = rest.start.toNat + 1 ∧ (rest.pop .front).2.stop = rest.stop
  /-- the stop stays a word when it moves, and only it moves -/
  backMoves : ∀ n, (rest.pop .back).1 = some n → 0 < rest.stop.toNat ∧
    (rest.pop .back).2.stop.toNat = rest.stop.toNat - 1 ∧ (rest.pop .back).2.start = rest.start

/-- A span is consumed from both ends, whatever its bounds are and however the ends take
turns. -/
theorem consumed (s : NodeSpan) (es : List SpanEnd) :
    s.Consumed (s.popEach es).1 (s.popEach es).2 where
  order := by rw [s.toList_popEach es, map_index_toList]
  distinct := by
    have hall := s.toList_popEach es ▸ s.nodup_toList
    rw [List.append_assoc] at hall
    refine (List.Perm.nodup_iff ?_).1 hall
    have hends := (perm_takenAt (s.popEach es).1).append_right (s.popEach es).2.toList
    refine .trans (.append_left _ ?_) (List.append_assoc _ _ _ ▸ hends)
    exact (List.perm_append_comm).trans ((List.reverse_perm _).append_right _)
  onward n hn := (takenAt_popEach_replicate hn).1
  backward n hn := (takenAt_popEach_replicate hn).2
  gives := pop_eq_none_iff _
  count := by
    rw [length_toList]
    exact s.length_taken_add_size es
  ended hall := by
    have hcount := s.length_taken_add_size es
    refine popEach_of_toList_eq_nil (List.length_eq_zero_iff.1 ?_)
    rw [length_toList]
    exact Nat.add_eq_left.1 (hcount.trans hall.symm)
  size := (length_toList _).symm
  isEmpty := isEmpty_iff _
  contains n := (mem_toList_iff _ n).symm
  frontMoves n hn := by
    have hsome := (isSome_pop_iff _ .front).1 (Option.isSome_of_eq_some hn)
    rw [pop, popFront, if_pos hsome]
    exact ⟨(toNat_start_add_one hsome).1, (toNat_start_add_one hsome).2, rfl⟩
  backMoves n hn := by
    have hsome := (isSome_pop_iff _ .back).1 (Option.isSome_of_eq_some hn)
    rw [pop, popBack, if_pos hsome]
    exact ⟨(toNat_stop_sub_one hsome).1, (toNat_stop_sub_one hsome).2, rfl⟩

example :
    ((NodeSpan.mk 0xFFFFFFFC 0xFFFFFFFF).popEach [.back, .front, .back, .front]).1.map Prod.snd =
      [some ⟨0xFFFFFFFE⟩, some ⟨0xFFFFFFFC⟩, some ⟨0xFFFFFFFD⟩, none] := by decide

end NodeSpan

end StateGraph
