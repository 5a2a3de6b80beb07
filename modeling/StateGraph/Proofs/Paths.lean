import Mathlib.Logic.Function.Iterate
import StateGraph.Proofs.EdgeViews

set_option autoImplicit false

/-!
# Descendants and ancestors are the ends of paths

The descendants of a node are the nodes at the end of a path of at least one edge, and
its ancestors those from which such a path leads to it (`Graph.reaches_run`).  The two
searches go along different indexes; that each node is a descendant of its ancestors
holds because the indexes agree.

A graph searches within the nodes that have an edge at all, and so its search ends.  It
takes the same way as `Search`, which is given no nodes to stay within and goes on for
as long as its stack holds something: that search ends as well, after as many rounds as
it finds nodes.
-/

namespace StateGraph

/-! ## Searching round by round -/

/-- A search that is given no nodes to stay within. -/
structure Search where
  /-- the nodes taken so far, latest first -/
  found : List NodeId
  /-- the nodes to take, top first -/
  stack : List NodeId
  /-- all nodes that were ever pushed -/
  pushed : List NodeId

namespace Search

/-- All neighbours of the start are on the stack, the last of them on top. -/
def start (next : NodeId → List NodeId) (n : NodeId) : Search :=
  ⟨[], (next n).reverse, (next n).reverse⟩

/-- Pushes a node, unless it was taken or pushed before. -/
def push (s : Search) (m : NodeId) : Search :=
  if m ∈ s.found ∨ m ∈ s.pushed then s
  else { s with stack := m :: s.stack, pushed := m :: s.pushed }

/-- Takes the top of the stack and pushes its neighbours, unless it was taken before.
With an empty stack nothing happens any more. -/
def round (next : NodeId → List NodeId) (s : Search) : Search :=
  match s.stack with
  | [] => s
  | n :: rest =>
    if n ∈ s.found then { s with stack := rest }
    else (next n).foldl push { s with found := n :: s.found, stack := rest }

/-- Different nodes that are new are all pushed. -/
theorem foldl_push_of_new {ms : List NodeId} (hdistinct : ms.Nodup) (s : Search)
    (hnew : ∀ m ∈ ms, m ∉ s.found ∧ m ∉ s.pushed) :
    ms.foldl push s = ⟨s.found, ms.reverse ++ s.stack, ms.reverse ++ s.pushed⟩ := by
  induction ms generalizing s with
  | nil => rfl
  | cons m ms ih =>
    obtain ⟨hfound, hpushed⟩ := hnew m List.mem_cons_self
    obtain ⟨hother, hrest⟩ := List.nodup_cons.1 hdistinct
    have hfirst : s.push m = { s with stack := m :: s.stack, pushed := m :: s.pushed } :=
      if_neg (not_or.2 ⟨hfound, hpushed⟩)
    rw [List.foldl_cons, hfirst, ih hrest]
    · simp
    · intro k hk
      obtain ⟨hfound', hpushed'⟩ := hnew k (List.mem_cons_of_mem m hk)
      exact ⟨hfound', List.not_mem_cons_of_ne_of_not_mem (fun heq => hother (heq ▸ hk)) hpushed'⟩

/-- A search stands where a search within given nodes stands. -/
structure StandsAt (s : Search) (all : List NodeId) (f : Frontier) (taken : List NodeId) :
    Prop where
  found : s.found = taken
  stack : s.stack = f.stack
  pushed : ∀ m ∈ all, m ∈ f.unseen ↔ m ∉ s.pushed
  partition : (taken ++ (f.stack ++ f.unseen)).Perm all

variable {next : NodeId → List NodeId} {all : List NodeId} {s : Search} {f : Frontier}
  {taken : List NodeId}

/-- Both searches push the same neighbours: a node that was taken was pushed before. -/
theorem StandsAt.push (hall : all.Nodup) {ms : List NodeId} (hms : ∀ m ∈ ms, m ∈ all)
    (hstands : s.StandsAt all f taken) :
    (ms.foldl Search.push s).StandsAt all (Frontier.push ms f) taken := by
  induction ms generalizing s f with
  | nil => exact hstands
  | cons m ms ih =>
    have hnodup := hstands.partition.nodup_iff.2 hall
    obtain ⟨-, hrest, hapart⟩ := List.nodup_append.1 hnodup
    have hunseen : f.unseen.Nodup := hrest.sublist (List.sublist_append_right _ _)
    have hm : m ∈ all := hms m List.mem_cons_self
    have hmore : ∀ k ∈ ms, k ∈ all := fun k hk => hms k (List.mem_cons_of_mem m hk)
    rw [List.foldl_cons, Frontier.push]
    by_cases hnew : m ∈ f.unseen
    · have hfound : m ∉ s.found := by
        rw [hstands.found]
        exact fun hold => hapart m hold m (List.mem_append_right _ hnew) rfl
      have hpush : s.push m = { s with stack := m :: s.stack, pushed := m :: s.pushed } :=
        if_neg (not_or.2 ⟨hfound, (hstands.pushed m hm).1 hnew⟩)
      rw [if_pos hnew, hpush]
      refine ih hmore ⟨hstands.found, congrArg (m :: ·) hstands.stack, fun k hk => ?_, ?_⟩
      · rw [List.Nodup.mem_erase_iff hunseen, hstands.pushed k hk, List.mem_cons, not_or]
      · have hperm := Frontier.perm_push [m] f
        simp only [Frontier.push, hnew, if_true] at hperm
        exact (hperm.append_left taken).trans hstands.partition
    · have hold : m ∈ s.pushed := not_not.1 fun hpushed => hnew ((hstands.pushed m hm).2 hpushed)
      rw [if_neg hnew, show s.push m = s from if_pos (.inr hold)]
      exact ih hmore hstands

/-- Both searches take the same node, which neither of them took before. -/
theorem StandsAt.round (hall : all.Nodup) (hwithin : ∀ u, ∀ v ∈ next u, v ∈ all) {n : NodeId}
    {rest unseen : List NodeId} (hstands : s.StandsAt all ⟨n :: rest, unseen⟩ taken) :
    (s.round next).StandsAt all (Frontier.push (next n) ⟨rest, unseen⟩) (n :: taken) := by
  have hnodup := hstands.partition.nodup_iff.2 hall
  have hfresh : n ∉ s.found := by
    rw [hstands.found]
    exact fun hold => (List.nodup_append.1 hnodup).2.2 n hold n (by simp) rfl
  have hround : s.round next =
      (next n).foldl Search.push { s with found := n :: s.found, stack := rest } := by
    rw [Search.round, hstands.stack]
    exact if_neg hfresh
  rw [hround]
  refine StandsAt.push hall (hwithin n) ⟨congrArg (n :: ·) hstands.found, rfl, hstands.pushed, ?_⟩
  exact List.perm_middle.symm.trans hstands.partition

/-- From where it stands, a search ends as the search within given nodes does, with one
round for each node that is still found. -/
theorem StandsAt.exists_rounds (hall : all.Nodup) (hwithin : ∀ u, ∀ v ∈ next u, v ∈ all)
    (hstands : s.StandsAt all f taken) :
    ∃ rounds pushed, (f.run next taken).length = taken.length + rounds ∧
      (Search.round next)^[rounds] s = ⟨(f.run next taken).reverse, [], pushed⟩ := by
  induction f, taken using Frontier.run.induct next generalizing s with
  | case1 unseen taken =>
    obtain ⟨_, _, pushed⟩ := s
    obtain ⟨rfl, rfl, -, -⟩ := hstands
    rw [Frontier.run, List.length_reverse, List.reverse_reverse]
    exact ⟨0, pushed, rfl, rfl⟩
  | case2 n rest unseen taken ih =>
    obtain ⟨rounds, pushed, hlength, hend⟩ := ih (hstands.round hall hwithin)
    rw [Frontier.run]
    refine ⟨rounds + 1, pushed, ?_, ?_⟩
    · rw [hlength, List.length_cons]
      omega
    · rw [Function.iterate_succ_apply, hend]

/-- A search that is given no nodes to stay within ends, if neighbours come from finitely
many nodes; it finds what the search within these nodes finds, and in the same order. -/
theorem exists_rounds_eq_reach (hall : all.Nodup) (hwithin : ∀ u, ∀ v ∈ next u, v ∈ all)
    {n : NodeId} (hdistinct : (next n).Nodup) :
    ∃ pushed, (round next)^[(reach next all n).length] (start next n) =
      ⟨(reach next all n).reverse, [], pushed⟩ := by
  have hempty : (⟨[], [], []⟩ : Search).StandsAt all ⟨[], all⟩ [] :=
    ⟨rfl, rfl, fun m hm => iff_of_true hm List.not_mem_nil, List.Perm.refl _⟩
  have hstart : (next n).foldl push ⟨[], [], []⟩ = start next n := by
    rw [foldl_push_of_new hdistinct _ fun m _ => ⟨List.not_mem_nil, List.not_mem_nil⟩]
    simp [start]
  obtain ⟨rounds, pushed, hlength, hend⟩ :=
    (hstart ▸ hempty.push hall (hwithin n)).exists_rounds hall hwithin
  obtain rfl : rounds = (reach next all n).length := by
    rw [reach, hlength, List.length_nil, Nat.zero_add]
  exact ⟨pushed, hend⟩

end Search

/-! ## Paths -/

open Relation

namespace Adjacency

/-- An edge leads from one node to another. -/
def Leads (a : Adjacency) (u v : NodeId) : Prop := ∃ k, a.hasEdge ⟨u, v, k⟩ = true

theorem leads_iff (a : Adjacency) (u v : NodeId) :
    a.Leads u v ↔ (a.highestKey u v).isSome = true := by
  simp only [Leads, hasEdge_iff, Option.isSome_iff_exists]
  constructor
  · rintro ⟨k, highest, hkey, -⟩
    exact ⟨highest, hkey⟩
  · rintro ⟨highest, hkey⟩
    exact ⟨highest, highest, hkey, UInt32.le_refl _⟩

variable {a : Adjacency}

theorem mem_keys_targets_iff (hsound : a.Sound) (u : NodeId) :
    u ∈ a.targets.keys ↔ ∃ v, (a.highestKey u v).isSome = true := by
  simp only [← mem_successors_iff]
  rw [← OrderedMap.get?_isSome_iff, successors]
  cases hget : a.targets.get? u with
  | none => simp
  | some ts =>
    have hne := hsound.inhabited u ts ((OrderedMap.get?_eq_some_iff _ _ _).1 hget)
    obtain ⟨entry, hentry⟩ := List.exists_mem_of_ne_nil _ hne
    exact ⟨fun _ => ⟨entry.1, OrderedMap.mem_keys_of_mem hentry⟩, fun _ => rfl⟩

/-- Each successor is a node with an edge to it. -/
theorem mem_sources_of_mem_successors (hsound : a.Sound) {u v : NodeId} (hv : v ∈ a.successors u) :
    v ∈ a.sources.keys :=
  (mem_keys_sources_iff hsound v).2 ⟨u, (mem_successors_iff a u v).1 hv⟩

/-- Each predecessor is a node with an edge from it. -/
theorem mem_targets_of_mem_predecessors (hsound : a.Sound) {u v : NodeId}
    (hu : u ∈ a.predecessors v) : u ∈ a.targets.keys :=
  (mem_keys_targets_iff hsound u).2 ⟨v, (mem_predecessors_iff hsound u v).1 hu⟩

/-- The search along the targets goes along edges. -/
theorem stepWithin_successors (hsound : a.Sound) :
    StepWithin a.successors a.sources.keys = a.Leads := by
  funext u v
  rw [StepWithin, leads_iff, ← mem_successors_iff]
  exact propext (and_iff_left_of_imp (mem_sources_of_mem_successors hsound))

/-- The search along the sources goes along edges, backwards. -/
theorem stepWithin_predecessors (hsound : a.Sound) :
    StepWithin a.predecessors a.targets.keys = Function.swap a.Leads := by
  funext v u
  show StepWithin _ _ v u = a.Leads u v
  rw [StepWithin, leads_iff, ← mem_predecessors_iff hsound]
  exact propext (and_iff_left_of_imp (mem_targets_of_mem_predecessors hsound))

theorem mem_descendants_iff (hsound : a.Sound) (n m : NodeId) :
    m ∈ a.descendants n ↔ TransGen a.Leads n m := by
  rw [descendants, mem_reach_iff _ a.sources.nodup_keys, stepWithin_successors hsound]

theorem mem_ancestors_iff (hsound : a.Sound) (n m : NodeId) :
    m ∈ a.ancestors n ↔ TransGen a.Leads m n := by
  rw [ancestors, mem_reach_iff _ a.targets.nodup_keys, stepWithin_predecessors hsound,
    transGen_swap]

/-- Edges join nodes that exist. -/
theorem Sound.hasNode_of_leads (hsound : a.Sound) {u v : NodeId} (hleads : a.Leads u v) :
    a.hasNode u = true ∧ a.hasNode v = true := by
  obtain ⟨highest, hkey⟩ := Option.isSome_iff_exists.1 ((leads_iff a u v).1 hleads)
  exact hsound.endpoints u v highest ((mem_entries_iff a u v highest).2 hkey)

/-- Both ends of a path exist. -/
theorem Sound.hasNode_of_transGen (hsound : a.Sound) {u v : NodeId} (hpath : TransGen a.Leads u v) :
    a.hasNode u = true ∧ a.hasNode v = true := by
  induction hpath with
  | single hfirst => exact hsound.hasNode_of_leads hfirst
  | tail _ hlast ih => exact ⟨ih.1, (hsound.hasNode_of_leads hlast).2⟩

/-- Different nodes that exist are at most as many as there are nodes. -/
theorem length_le_nodeCount {l : List NodeId} (hdistinct : l.Nodup)
    (hnodes : ∀ n ∈ l, a.hasNode n = true) : l.length ≤ a.nodeCount.toNat := by
  have hsub : l.Subperm a.nodes.toList :=
    List.subperm_of_subset hdistinct fun n hn => (a.mem_nodes_toList_iff n).2 (hnodes n hn)
  exact a.length_nodes ▸ hsub.length_le

end Adjacency

/-! ## Graphs -/

namespace Graph

/-- Descendants and ancestors are found exactly, by searches that end. -/
structure Reaches (g : Graph) : Prop where
  /-- the search along the successors ends with an empty stack and has found the descendants,
  in their order -/
  descendantsFound : ∀ n, ∃ pushed,
    (Search.round g.successors)^[(g.descendants n).length] (.start g.successors n) =
      ⟨(g.descendants n).reverse, [], pushed⟩
  ancestorsFound : ∀ n, ∃ pushed,
    (Search.round g.predecessors)^[(g.ancestors n).length] (.start g.predecessors n) =
      ⟨(g.ancestors n).reverse, [], pushed⟩
  /-- no more rounds than there are nodes -/
  bounded : ∀ n, (g.descendants n).length ≤ g.nodeCount ∧ (g.ancestors n).length ≤ g.nodeCount
  distinct : ∀ n, (g.descendants n).Nodup ∧ (g.ancestors n).Nodup
  /-- the ends of paths of at least one edge -/
  descendants : ∀ n m, m ∈ g.descendants n ↔ TransGen g.adjacency.Leads n m
  ancestors : ∀ n m, m ∈ g.ancestors n ↔ TransGen g.adjacency.Leads m n
  converse : ∀ n m, m ∈ g.descendants n ↔ n ∈ g.ancestors m
  /-- each listed node is a successor of the start or of a node listed before -/
  descendantsOrder : ∀ n before m after, g.descendants n = before ++ m :: after →
    ∃ u, (u = n ∨ u ∈ before) ∧ m ∈ g.successors u
  ancestorsOrder : ∀ n before m after, g.ancestors n = before ++ m :: after →
    ∃ v, (v = n ∨ v ∈ before) ∧ m ∈ g.predecessors v
  outside : ∀ n, g.hasNode n = false → g.descendants n = [] ∧ g.ancestors n = []

/-- Sound indexes are searched exactly. -/
theorem reaches_of_sound {g : Graph} (hsound : g.adjacency.Sound) : g.Reaches := by
  have hdescendants := Adjacency.mem_descendants_iff hsound
  have hancestors := Adjacency.mem_ancestors_iff hsound
  have hnodup : ∀ n, (g.descendants n).Nodup ∧ (g.ancestors n).Nodup := fun n =>
    ⟨nodup_reach _ g.adjacency.sources.nodup_keys n, nodup_reach _ g.adjacency.targets.nodup_keys n⟩
  constructor
  case descendantsFound =>
    exact fun n => Search.exists_rounds_eq_reach g.adjacency.sources.nodup_keys
      (fun _ _ => Adjacency.mem_sources_of_mem_successors hsound) (g.adjacency.nodup_successors n)
  case ancestorsFound =>
    exact fun n => Search.exists_rounds_eq_reach g.adjacency.targets.nodup_keys
      (fun _ _ => Adjacency.mem_targets_of_mem_predecessors hsound)
      (g.adjacency.nodup_predecessors n)
  case bounded =>
    refine fun n => ⟨Adjacency.length_le_nodeCount (hnodup n).1 fun m hm => ?_,
      Adjacency.length_le_nodeCount (hnodup n).2 fun m hm => ?_⟩
    · exact (hsound.hasNode_of_transGen ((hdescendants n m).1 hm)).2
    · exact (hsound.hasNode_of_transGen ((hancestors n m).1 hm)).1
  case distinct => exact hnodup
  case descendants => exact hdescendants
  case ancestors => exact hancestors
  case converse => exact fun n m => (hdescendants n m).trans (hancestors m n).symm
  case descendantsOrder => exact fun n _ _ _ hsplit => exists_before_of_reach_eq _ _ n hsplit
  case ancestorsOrder => exact fun n _ _ _ hsplit => exists_before_of_reach_eq _ _ n hsplit
  case outside =>
    intro n hmissing
    have hnone : ¬ g.adjacency.hasNode n = true := by
      rw [show g.adjacency.hasNode n = false from hmissing]
      exact Bool.false_ne_true
    refine ⟨List.eq_nil_iff_forall_not_mem.2 fun m hm => hnone ?_,
      List.eq_nil_iff_forall_not_mem.2 fun m hm => hnone ?_⟩
    · exact (hsound.hasNode_of_transGen ((hdescendants n m).1 hm)).1
    · exact (hsound.hasNode_of_transGen ((hancestors n m).1 hm)).2

/-- At the end of every history, descendants and ancestors are the ends of paths. -/
theorem reaches_run {g : Graph} (horigin : g.Origin) (requests : List Request) :
    (g.run requests).Reaches :=
  reaches_of_sound (horigin.wellFormed.run requests).adjacency.toSound

/-- A history from parts: a cycle, a loop beside it, a way out of the cycle, and a node
that nothing leads to. -/
theorem reaches_run_of_parts :
    ∃ g, ofParts ⟨0⟩ 4 [(⟨0⟩, ⟨1⟩, 1), (⟨1⟩, ⟨0⟩, 0), (⟨1⟩, ⟨2⟩, 0)] [] [] .empty = .ok g ∧
      (g.run [.addEdge ⟨2⟩ ⟨2⟩, .addEdge ⟨0⟩ ⟨4⟩]).Reaches ∧
      (g.run [.addEdge ⟨2⟩ ⟨2⟩, .addEdge ⟨0⟩ ⟨4⟩]).descendants ⟨0⟩ = [⟨1⟩, ⟨2⟩, ⟨0⟩] := by
  refine ⟨_, rfl, ?_, ?_⟩
  · have hmade : ofParts ⟨0⟩ 4 [(⟨0⟩, ⟨1⟩, 1), (⟨1⟩, ⟨0⟩, 0), (⟨1⟩, ⟨2⟩, 0)] [] [] .empty =
      .ok _ := rfl
    exact reaches_run (.parts hmade) _
  · decide +kernel

end Graph

end StateGraph
