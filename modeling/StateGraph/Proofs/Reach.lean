import Mathlib.Logic.Relation
import StateGraph.Adjacency.Reach

set_option autoImplicit false

/-!
# What a search finds

A search within given nodes finds, each once, the nodes at the end of a path of at
least one step that stays within these nodes (`mem_reach_iff`, `nodup_reach`), and
each as a neighbour of one that it found before (`exists_before_of_reach_eq`).  The
order in which it finds them depends on the order of the neighbours, but not on the
order in which the given nodes are listed (`reach_congr`).

`SearchInvariant` is what every round keeps.  A node that is taken off the stack
has all its neighbours on the stack or found, because they are pushed in the same
round; so nothing is missed when the stack is empty.
-/

namespace StateGraph

/-- A step of a path within the given nodes. -/
def StepWithin (next : NodeId → List NodeId) (all : List NodeId) (u v : NodeId) : Prop :=
  v ∈ next u ∧ v ∈ all

namespace Frontier

/-! ## Pushing -/

/-- Pushing moves nodes and loses none. -/
theorem perm_push (ms : List NodeId) (f : Frontier) :
    ((push ms f).stack ++ (push ms f).unseen).Perm (f.stack ++ f.unseen) := by
  induction ms generalizing f with
  | nil => exact List.Perm.refl _
  | cons m ms ih =>
    unfold push
    split
    · rename_i hm
      refine (ih _).trans ?_
      have hfront : (f.stack ++ m :: f.unseen.erase m).Perm (m :: (f.stack ++ f.unseen.erase m)) :=
        List.perm_middle
      have herase : f.unseen.Perm (m :: f.unseen.erase m) := List.perm_cons_erase hm
      exact hfront.symm.trans (herase.append_left f.stack).symm
    · exact ih f

/-- What is on the stack after pushing was there before or is a node that was never
pushed. -/
theorem mem_stack_push (ms : List NodeId) (f : Frontier) {v : NodeId}
    (hv : v ∈ (push ms f).stack) : v ∈ f.stack ∨ (v ∈ ms ∧ v ∈ f.unseen) := by
  induction ms generalizing f with
  | nil => exact .inl hv
  | cons m ms ih =>
    unfold push at hv
    split at hv
    · rename_i hm
      rcases ih _ hv with hstack | ⟨hms, hunseen⟩
      · rcases List.mem_cons.1 hstack with rfl | hold
        · exact .inr ⟨List.mem_cons_self, hm⟩
        · exact .inl hold
      · exact .inr ⟨List.mem_cons_of_mem m hms, List.mem_of_mem_erase hunseen⟩
    · rcases ih f hv with hold | ⟨hms, hunseen⟩
      · exact .inl hold
      · exact .inr ⟨List.mem_cons_of_mem m hms, hunseen⟩

/-- After pushing, the pushed nodes are no longer among those never pushed. -/
theorem mem_unseen_push (ms : List NodeId) (f : Frontier) (hnodup : f.unseen.Nodup) {v : NodeId}
    (hv : v ∈ (push ms f).unseen) : v ∈ f.unseen ∧ v ∉ ms := by
  induction ms generalizing f with
  | nil => exact ⟨hv, List.not_mem_nil⟩
  | cons m ms ih =>
    unfold push at hv
    split at hv
    · obtain ⟨hunseen, hms⟩ := ih _ (hnodup.erase m) hv
      obtain ⟨hne, hold⟩ := (List.Nodup.mem_erase_iff hnodup).1 hunseen
      exact ⟨hold, List.not_mem_cons_of_ne_of_not_mem hne hms⟩
    · rename_i hm
      obtain ⟨hunseen, hms⟩ := ih f hnodup hv
      have hne : v ≠ m := fun heq => hm (heq ▸ hunseen)
      exact ⟨hunseen, List.not_mem_cons_of_ne_of_not_mem hne hms⟩

/-- Pushing does not look at the order of the nodes never pushed. -/
theorem push_congr (ms : List NodeId) (f₁ f₂ : Frontier) (hstack : f₁.stack = f₂.stack)
    (hunseen : f₁.unseen.Perm f₂.unseen) :
    (push ms f₁).stack = (push ms f₂).stack ∧ (push ms f₁).unseen.Perm (push ms f₂).unseen := by
  induction ms generalizing f₁ f₂ with
  | nil => exact ⟨hstack, hunseen⟩
  | cons m ms ih =>
    unfold push
    by_cases hm : m ∈ f₁.unseen
    · rw [if_pos hm, if_pos (hunseen.mem_iff.1 hm)]
      exact ih _ _ (congrArg (m :: ·) hstack) (hunseen.erase m)
    · rw [if_neg hm, if_neg fun h => hm (hunseen.mem_iff.2 h)]
      exact ih f₁ f₂ hstack hunseen

/-! ## Rounds -/

/-- What every round keeps, the search keeps to its end. -/
theorem exists_run_eq {next : NodeId → List NodeId} {P : Frontier → List NodeId → Prop}
    (hround : ∀ n rest unseen found, P ⟨n :: rest, unseen⟩ found →
      P (push (next n) ⟨rest, unseen⟩) (n :: found))
    (f : Frontier) (found : List NodeId) (hP : P f found) :
    ∃ unseen result, run next f found = result.reverse ∧ P ⟨[], unseen⟩ result := by
  induction f, found using run.induct next with
  | case1 unseen found => exact ⟨unseen, found, by rw [run], hP⟩
  | case2 n rest unseen found ih =>
    rw [run]
    exact ih (hround n rest unseen found hP)

/-- The order of the nodes never pushed does not matter to the search. -/
theorem run_congr (next : NodeId → List NodeId) (f₁ : Frontier) (found : List NodeId)
    {f₂ : Frontier} (hstack : f₁.stack = f₂.stack) (hunseen : f₁.unseen.Perm f₂.unseen) :
    run next f₁ found = run next f₂ found := by
  induction f₁, found using run.induct next generalizing f₂ with
  | case1 unseen found =>
    obtain ⟨stack, unseen₂⟩ := f₂
    cases hstack
    rw [run, run]
  | case2 n rest unseen found ih =>
    obtain ⟨stack, unseen₂⟩ := f₂
    cases hstack
    rw [run, run]
    obtain ⟨hstack', hunseen'⟩ := push_congr (next n) ⟨rest, unseen⟩ ⟨rest, unseen₂⟩ rfl
      hunseen
    exact ih hstack' hunseen'

end Frontier

/-! ## The search -/

open Relation Frontier

/-- What is true before and after each round of a search. -/
structure SearchInvariant (next : NodeId → List NodeId) (all : List NodeId) (start : NodeId)
    (f : Frontier) (found : List NodeId) : Prop where
  /-- every node is found, on the stack, or was never pushed -/
  partition : (found ++ (f.stack ++ f.unseen)).Perm all
  /-- only nodes that a path leads to are pushed -/
  sound : ∀ v ∈ found ++ f.stack, TransGen (StepWithin next all) start v
  /-- all neighbours of the start and of the nodes found have been pushed -/
  closed : ∀ u, u = start ∨ u ∈ found → ∀ v ∈ next u, v ∉ f.unseen

/-- The nodes never pushed are distinct. -/
theorem SearchInvariant.nodup_unseen {next : NodeId → List NodeId} {all : List NodeId}
    {start : NodeId} {f : Frontier} {found : List NodeId}
    (hinv : SearchInvariant next all start f found) (hall : all.Nodup) : f.unseen.Nodup := by
  have hnodup := hinv.partition.nodup_iff.2 hall
  exact ((List.nodup_append.1 hnodup).2.1.sublist (List.sublist_append_right _ _))

/-- Before the first round, the neighbours of the start are pushed. -/
theorem searchInvariant_start (next : NodeId → List NodeId) {all : List NodeId} (hall : all.Nodup)
    (start : NodeId) : SearchInvariant next all start (push (next start) ⟨[], all⟩) [] where
  partition := perm_push (next start) ⟨[], all⟩
  sound v hv := by
    rcases mem_stack_push _ _ hv with hold | ⟨hnext, hmem⟩
    · cases hold
    · exact .single ⟨hnext, hmem⟩
  closed u hu v hv hunseen := by
    rcases hu with rfl | hfound
    · exact (mem_unseen_push _ _ hall hunseen).2 hv
    · cases hfound

/-- A round keeps the invariant. -/
theorem SearchInvariant.round {next : NodeId → List NodeId} {all : List NodeId} (hall : all.Nodup)
    {start n : NodeId} {rest unseen found : List NodeId}
    (hinv : SearchInvariant next all start ⟨n :: rest, unseen⟩ found) :
    SearchInvariant next all start (push (next n) ⟨rest, unseen⟩) (n :: found) where
  partition := by
    have hpush : (n :: found ++ _).Perm (n :: found ++ (rest ++ unseen)) :=
      (perm_push (next n) ⟨rest, unseen⟩).append_left (n :: found)
    exact hpush.trans (List.perm_middle.symm.trans hinv.partition)
  sound v hv := by
    have hn : TransGen (StepWithin next all) start n := hinv.sound n (by simp)
    rcases List.mem_append.1 hv with hfound | hstack
    · rcases List.mem_cons.1 hfound with rfl | hfound
      · exact hn
      · exact hinv.sound v (List.mem_append_left _ hfound)
    · rcases mem_stack_push _ _ hstack with hold | ⟨hnext, hunseen⟩
      · exact hinv.sound v (List.mem_append_right _ (List.mem_cons_of_mem n hold))
      · exact hn.tail ⟨hnext, hinv.partition.mem_iff.1 (by simp [hunseen])⟩
  closed u hu v hv hunseen := by
    obtain ⟨hold, hnotNext⟩ := mem_unseen_push _ ⟨rest, unseen⟩ (hinv.nodup_unseen hall) hunseen
    rcases hu with rfl | hfound
    · exact hinv.closed u (.inl rfl) v hv hold
    · rcases List.mem_cons.1 hfound with rfl | hfound
      · exact hnotNext hv
      · exact hinv.closed u (.inr hfound) v hv hold

/-- The invariant at the end of a search. -/
theorem exists_reach_eq (next : NodeId → List NodeId) {all : List NodeId} (hall : all.Nodup)
    (start : NodeId) :
    ∃ unseen result, reach next all start = result.reverse ∧
      SearchInvariant next all start ⟨[], unseen⟩ result :=
  exists_run_eq (fun _ _ _ _ hinv => hinv.round hall) _ [] (searchInvariant_start next hall start)

/-- A search finds the nodes that a path leads to. -/
theorem mem_reach_iff (next : NodeId → List NodeId) {all : List NodeId} (hall : all.Nodup)
    (start v : NodeId) : v ∈ reach next all start ↔ TransGen (StepWithin next all) start v := by
  obtain ⟨unseen, result, hreach, hinv⟩ := exists_reach_eq next hall start
  rw [hreach, List.mem_reverse]
  constructor
  · intro hv
    exact hinv.sound v (List.mem_append_left _ hv)
  · intro hpath
    have hstep : ∀ u w, u = start ∨ u ∈ result → StepWithin next all u w → w ∈ result := by
      rintro u w hu ⟨hnext, hmem⟩
      rcases List.mem_append.1 (hinv.partition.mem_iff.2 hmem) with hfound | hunseen
      · exact hfound
      · exact absurd hunseen (hinv.closed u hu w hnext)
    induction hpath with
    | single hfirst => exact hstep start _ (.inl rfl) hfirst
    | tail _ hlast ih => exact hstep _ _ (.inr ih) hlast

/-- A search finds no node twice. -/
theorem nodup_reach (next : NodeId → List NodeId) {all : List NodeId} (hall : all.Nodup)
    (start : NodeId) : (reach next all start).Nodup := by
  obtain ⟨unseen, result, hreach, hinv⟩ := exists_reach_eq next hall start
  have hnodup := hinv.partition.nodup_iff.2 hall
  rw [hreach, (List.reverse_perm result).nodup_iff]
  exact (List.nodup_append.1 hnodup).1

/-- What was pushed or found is a neighbour of the start or of a node that was found
before. -/
structure Discovered (next : NodeId → List NodeId) (start : NodeId) (f : Frontier)
    (found : List NodeId) : Prop where
  pushed : ∀ v ∈ f.stack, ∃ u, (u = start ∨ u ∈ found) ∧ v ∈ next u
  /-- the nodes found are listed latest first -/
  taken : ∀ later v earlier, found = later ++ v :: earlier →
    ∃ u, (u = start ∨ u ∈ earlier) ∧ v ∈ next u

/-- A round finds a node that was pushed, and pushes neighbours of this node. -/
theorem Discovered.round {next : NodeId → List NodeId} {start n : NodeId}
    {rest unseen found : List NodeId} (hfound : Discovered next start ⟨n :: rest, unseen⟩ found) :
    Discovered next start (push (next n) ⟨rest, unseen⟩) (n :: found) where
  pushed v hv := by
    rcases mem_stack_push _ _ hv with hold | ⟨hnext, -⟩
    · obtain ⟨u, hu, hv⟩ := hfound.pushed v (List.mem_cons_of_mem n hold)
      exact ⟨u, hu.imp id (List.mem_cons_of_mem n), hv⟩
    · exact ⟨n, .inr List.mem_cons_self, hnext⟩
  taken later v earlier hsplit := by
    cases later with
    | nil =>
      cases hsplit
      exact hfound.pushed n List.mem_cons_self
    | cons m later =>
      cases hsplit
      exact hfound.taken later v earlier rfl

/-- A search finds each node as a neighbour of the start or of a node that it found
before. -/
theorem exists_before_of_reach_eq (next : NodeId → List NodeId) (all : List NodeId) (start : NodeId)
    {before after : List NodeId} {v : NodeId}
    (hsplit : reach next all start = before ++ v :: after) :
    ∃ u, (u = start ∨ u ∈ before) ∧ v ∈ next u := by
  have hfirst : Discovered next start (push (next start) ⟨[], all⟩) [] := by
    refine ⟨fun w hw => ?_, fun later w earlier hnil => ?_⟩
    · rcases mem_stack_push _ _ hw with hold | ⟨hnext, -⟩
      · cases hold
      · exact ⟨start, .inl rfl, hnext⟩
    · simp at hnil
  obtain ⟨unseen, result, hreach, hfound⟩ :=
    exists_run_eq (fun _ _ _ _ hfound => hfound.round) _ [] hfirst
  have hresult : result = after.reverse ++ v :: before.reverse := by
    rw [reach, hreach] at hsplit
    rw [← List.reverse_reverse result, hsplit]
    simp
  obtain ⟨u, hu, hv⟩ := hfound.taken _ v _ hresult
  exact ⟨u, hu.imp id List.mem_reverse.1, hv⟩

/-- The order in which the given nodes are listed does not matter. -/
theorem reach_congr (next : NodeId → List NodeId) {all₁ all₂ : List NodeId} (hperm : all₁.Perm all₂)
    (start : NodeId) : reach next all₁ start = reach next all₂ start := by
  obtain ⟨hstack, hunseen⟩ := push_congr (next start) ⟨[], all₁⟩ ⟨[], all₂⟩ rfl hperm
  exact run_congr next _ [] hstack hunseen

/-- Neighbours in another order are found in another order. -/
theorem perm_reach {next₁ next₂ : NodeId → List NodeId} (hperm : ∀ u, (next₁ u).Perm (next₂ u))
    {all : List NodeId} (hall : all.Nodup) (start : NodeId) :
    (reach next₁ all start).Perm (reach next₂ all start) := by
  have hsteps : StepWithin next₁ all = StepWithin next₂ all := by
    funext u v
    simp only [StepWithin, (hperm u).mem_iff]
  rw [List.perm_ext_iff_of_nodup (nodup_reach next₁ hall start) (nodup_reach next₂ hall start)]
  intro v
  rw [mem_reach_iff next₁ hall, mem_reach_iff next₂ hall, hsteps]

end StateGraph
