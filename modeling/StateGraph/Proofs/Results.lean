import StateGraph.Fault

set_option autoImplicit false

/-!
# Requests that may fail

A request yields a result or an error, and a chain of requests ends with its
first error.  These laws open such chains: what a chain that succeeded went
through, and what a loop of requests keeps from round to round.

`Settles` describes a request by the list of all faults that it may find, in the
order in which it looks for them: it fails with the first of them, and succeeds if
there is none.  The faults of a chain are those of its parts, one after another.
`SettlesUnless` is the same for a request that may also overflow, and names a cause
without which it does not.
-/

namespace StateGraph

variable {ε α β γ : Type}

@[simp] theorem ok_bind (a : α) (f : α → Except ε β) : (Except.ok a >>= f) = f a := rfl

@[simp] theorem error_bind (e : ε) (f : α → Except ε β) : (Except.error e >>= f) = .error e := rfl

theorem bind_eq_ok_iff {x : Except ε α} {f : α → Except ε β} {b : β} :
    (x >>= f) = .ok b ↔ ∃ a, x = .ok a ∧ f a = .ok b := by
  cases x with
  | error e => simp
  | ok a => simp

/-- What is done with a result only matters if there is one. -/
theorem bind_congr_of_ok {x : Except ε α} {f f' : α → Except ε β}
    (hsame : ∀ a, x = .ok a → f a = f' a) : (x >>= f) = (x >>= f') := by
  cases x with
  | error e => rfl
  | ok a => exact hsame a rfl

theorem map_eq_ok_iff {x : Except ε α} {f : α → β} {b : β} :
    x.map f = .ok b ↔ ∃ a, x = .ok a ∧ f a = b := by
  cases x with
  | error e => simp [Except.map]
  | ok a => simp [Except.map]

theorem mapError_eq_ok_iff {δ : Type} {x : Except ε α} {f : ε → δ} {a : α} :
    x.mapError f = .ok a ↔ x = .ok a := by
  constructor
  · intro hmapped
    cases x with
    | error e => cases hmapped
    | ok b =>
      cases hmapped
      rfl
  · rintro rfl
    rfl

/-- What every successful round of a loop keeps, a successful loop keeps. -/
theorem foldlM_keeps {f : β → α → Except ε β} {P : β → Prop}
    (hstep : ∀ b a b', P b → f b a = .ok b' → P b') (l : List α) {b r : β} (hb : P b)
    (hrun : l.foldlM f b = .ok r) : P r := by
  induction l generalizing b with
  | nil =>
    cases hrun
    exact hb
  | cons a l ih =>
    rw [List.foldlM_cons] at hrun
    obtain ⟨b', hfirst, hrest⟩ := bind_eq_ok_iff.1 hrun
    exact ih (hstep b a b' hb hfirst) hrest

/-- Two loops whose rounds do the same, as long as something is kept that makes them so. -/
theorem foldlM_congr_of_keeps {f f' : β → α → Except ε β} {P : β → Prop}
    (hsame : ∀ b a, P b → f b a = f' b a) (hstep : ∀ b a b', P b → f b a = .ok b' → P b')
    (l : List α) {b : β} (hb : P b) : l.foldlM f b = l.foldlM f' b := by
  induction l generalizing b with
  | nil => rfl
  | cons a l ih =>
    rw [List.foldlM_cons, List.foldlM_cons, ← hsame b a hb]
    cases hfirst : f b a with
    | error e => rfl
    | ok b' => exact ih (hstep b a b' hb hfirst)

/-- A loop that only checks its elements passes if each of them does. -/
theorem forM_eq_ok_iff {f : α → Except ε Unit} (l : List α) :
    l.forM f = .ok () ↔ ∀ a ∈ l, f a = .ok () := by
  induction l with
  | nil => exact iff_of_true rfl fun a ha => absurd ha List.not_mem_nil
  | cons a l ih =>
    show (f a >>= fun _ => l.forM f) = _ ↔ _
    rw [bind_eq_ok_iff, List.forall_mem_cons, ← ih]
    constructor
    · rintro ⟨⟨⟩, hfirst, hrest⟩
      exact ⟨hfirst, hrest⟩
    · rintro ⟨hfirst, hrest⟩
      exact ⟨(), hfirst, hrest⟩

/-- A loop that only checks its elements fails where the first of them does that is refused. -/
theorem forM_eq_error_iff {f : α → Except ε Unit} (l : List α) (e : ε) :
    l.forM f = .error e ↔ ∃ before a after, l = before ++ a :: after ∧
      (∀ b ∈ before, f b = .ok ()) ∧ f a = .error e := by
  induction l with
  | nil => simp [pure, Except.pure]
  | cons a l ih =>
    show (f a >>= fun _ => l.forM f) = _ ↔ _
    constructor
    · intro hloop
      cases hfirst : f a with
      | error e' =>
        rw [hfirst] at hloop
        exact ⟨[], a, l, rfl, fun b hb => absurd hb List.not_mem_nil, hfirst.trans hloop⟩
      | ok =>
        rw [hfirst, ok_bind] at hloop
        obtain ⟨before, c, after, rfl, hbefore, hc⟩ := ih.1 hloop
        exact ⟨a :: before, c, after, rfl, List.forall_mem_cons.2 ⟨hfirst, hbefore⟩, hc⟩
    · rintro ⟨before, c, after, hsplit, hbefore, hc⟩
      cases before with
      | nil =>
        cases hsplit
        rw [hc]
        rfl
      | cons b before =>
        cases hsplit
        obtain ⟨hfirst, hrest⟩ := List.forall_mem_cons.1 hbefore
        rw [hfirst, ok_bind]
        exact ih.2 ⟨before, c, after, rfl, hrest, hc⟩

/-- What a computed result is like can be tested. -/
theorem exists_eq_ok_of_test {x : Except ε β} {p : β → Prop} [DecidablePred p]
    (htest : (match x with | .ok b => decide (p b) | .error _ => false) = true) :
    ∃ b, x = .ok b ∧ p b := by
  cases x with
  | error e => cases htest
  | ok b => exact ⟨b, rfl, of_decide_eq_true htest⟩

/-! ## First faults -/

/-- A request fails with the first of the faults, and if there is none succeeds
with a result that is as it should be. -/
def Settles (x : Except ε β) (faults : List ε) (good : β → Prop) : Prop :=
  match faults with
  | [] => ∃ b, x = .ok b ∧ good b
  | e :: _ => x = .error e

/-- A request without faults. -/
theorem settles_ok {b : β} {good : β → Prop} (hgood : good b) :
    Settles (.ok b : Except ε β) [] good :=
  ⟨b, rfl, hgood⟩

theorem Settles.eq_ok {x : Except ε β} {good : β → Prop} (hx : Settles x [] good) :
    ∃ b, x = .ok b ∧ good b := hx

theorem Settles.mono {x : Except ε β} {faults : List ε} {good good' : β → Prop}
    (hx : Settles x faults good) (hmore : ∀ b, good b → good' b) : Settles x faults good' := by
  cases faults with
  | nil =>
    obtain ⟨b, hb, hgood⟩ := hx
    exact ⟨b, hb, hmore b hgood⟩
  | cons e rest => exact hx

/-- The faults of a request come before those of what is done with its result. -/
theorem Settles.bind {x : Except ε α} {f : α → Except ε β} {first rest : List ε} {good : α → Prop}
    {good' : β → Prop} (hx : Settles x first good) (hf : ∀ a, good a → Settles (f a) rest good') :
    Settles (x >>= f) (first ++ rest) good' := by
  cases first with
  | nil =>
    obtain ⟨a, rfl, hgood⟩ := hx
    exact hf a hgood
  | cons e more =>
    rw [show x = .error e from hx]
    rfl

/-- A request that succeeds has no faults. -/
theorem Settles.faults_eq_nil {x : Except ε β} {faults : List ε} {good : β → Prop}
    (hx : Settles x faults good) {b : β} (hb : x = .ok b) : faults = [] ∧ good b := by
  cases faults with
  | nil =>
    obtain ⟨b', hb', hgood⟩ := hx
    rw [hb] at hb'
    cases hb'
    exact ⟨rfl, hgood⟩
  | cons e rest =>
    rw [show x = .error e from hx] at hb
    cases hb

/-- What a request yields, it yields without faults. -/
theorem Settles.and_faults_eq_nil {x : Except ε β} {faults : List ε} {good : β → Prop}
    (hx : Settles x faults good) : Settles x faults fun b => good b ∧ faults = [] := by
  cases faults with
  | nil =>
    obtain ⟨b, hb, hgood⟩ := hx
    exact ⟨b, hb, hgood, rfl⟩
  | cons e rest => exact hx

/-- A request that fails does so with its first fault, and the other way round. -/
theorem Settles.eq_error_iff {x : Except ε β} {faults : List ε} {good : β → Prop}
    (hx : Settles x faults good) (e : ε) : x = .error e ↔ faults.head? = some e := by
  cases faults with
  | nil =>
    obtain ⟨b, rfl, -⟩ := hx
    simp
  | cons e' rest =>
    rw [show x = .error e' from hx]
    simp

/-- Requests that are made for each element of a list. -/
theorem settles_mapM {f : α → Except ε β} {faults : α → List ε} {value : α → β} (l : List α)
    (hf : ∀ a, Settles (f a) (faults a) (· = value a)) :
    Settles (l.mapM f) (l.flatMap faults) (· = l.map value) := by
  induction l with
  | nil => exact settles_ok rfl
  | cons a l ih =>
    rw [List.mapM_cons, List.flatMap_cons]
    refine (hf a).bind fun b hb => ?_
    rw [← List.append_nil (l.flatMap faults)]
    refine ih.bind fun bs hbs => ?_
    rw [hb, hbs]
    exact settles_ok rfl

/-- The faults along a list, where the faults of an element may depend on the
elements before it. -/
def faultsAlong (faults : List α → α → List ε) (before : List α) : List α → List ε
  | [] => []
  | a :: l => faults before a ++ faultsAlong faults (before ++ [a]) l

/-- Faults that do not depend on the elements before are listed one by one. -/
theorem faultsAlong_const (faults : α → List ε) (before l : List α) :
    faultsAlong (fun _ => faults) before l = l.flatMap faults := by
  induction l generalizing before with
  | nil => rfl
  | cons a l ih => rw [faultsAlong, List.flatMap_cons, ih]

/-- The first fault along a list is the first one of the first element that has any. -/
theorem exists_of_head?_faultsAlong {faults : List α → α → List ε} {before l : List α} {e : ε}
    (he : (faultsAlong faults before l).head? = some e) :
    ∃ l₁ a l₂, l = l₁ ++ a :: l₂ ∧ faultsAlong faults before l₁ = [] ∧
      (faults (before ++ l₁) a).head? = some e := by
  induction l generalizing before with
  | nil => cases he
  | cons a l ih =>
    rw [faultsAlong] at he
    cases hfirst : faults before a with
    | cons e' rest =>
      rw [hfirst] at he
      exact ⟨[], a, l, rfl, rfl, by rw [List.append_nil, hfirst]; exact he⟩
    | nil =>
      rw [hfirst, List.nil_append] at he
      obtain ⟨l₁, a', l₂, rfl, hnone, hhead⟩ := ih he
      refine ⟨a :: l₁, a', l₂, rfl, ?_, ?_⟩
      · rw [faultsAlong, hfirst, List.nil_append, hnone]
      · rwa [List.append_assoc, List.singleton_append] at hhead

variable {κ : Type} [DecidableEq κ]

/-- The fault of an element whose key came before. -/
def repeatFaults (key : α → κ) (repeated : α → ε) (before : List α) (a : α) : List ε :=
  if key a ∈ before.map key then [repeated a] else []

/-- If an element is at fault on its own or for a key that came before, nothing is wrong
with elements that are in order and have different keys. -/
theorem faultsAlong_eq_nil_iff_nodup (key : α → κ) (own : α → List ε)
    (repeated : α → ε) (before : List α) (hbefore : (before.map key).Nodup) (l : List α) :
    faultsAlong (fun before a => own a ++ repeatFaults key repeated before a) before l = [] ↔
      (∀ a ∈ l, own a = []) ∧ ((before ++ l).map key).Nodup := by
  induction l generalizing before with
  | nil => simpa [faultsAlong] using hbefore
  | cons a l ih =>
    rw [faultsAlong, List.append_eq_nil_iff, List.append_eq_nil_iff, List.forall_mem_cons,
      and_assoc, and_assoc]
    refine and_congr_right fun _ => ?_
    by_cases hold : key a ∈ before.map key
    · have hrepeats : ¬ ((before ++ a :: l).map key).Nodup := by
        rw [List.map_append, List.nodup_append]
        exact fun hnodup => hnodup.2.2 (key a) hold (key a) (by simp) rfl
      rw [repeatFaults, if_pos hold]
      exact iff_of_false (fun hnil => by simp at hnil) fun hright => hrepeats hright.2
    · have hnext : ((before ++ [a]).map key).Nodup := by
        rw [List.map_append, List.nodup_append]
        refine ⟨hbefore, by simp, fun k hk k' hk' heq => hold ?_⟩
        rw [← show k' = key a by simpa using hk', ← heq]
        exact hk
      rw [repeatFaults, if_neg hold, ih _ hnext, List.append_assoc]
      simp

/-- A loop, with an invariant on the elements it has gone over. -/
theorem settles_foldlM {f : β → α → Except ε β} {faults : List α → α → List ε}
    (inv : List α → β → Prop) (l : List α)
    (hround : ∀ before a after b, l = before ++ a :: after → inv before b →
      Settles (f b a) (faults before a) (inv (before ++ [a])))
    {b : β} (hb : inv [] b) : Settles (l.foldlM f b) (faultsAlong faults [] l) (inv l) := by
  have hfrom : ∀ after before b, l = before ++ after → inv before b →
      Settles (after.foldlM f b) (faultsAlong faults before after) (inv l) := by
    intro after
    induction after with
    | nil =>
      intro before b hsplit hinv
      rw [List.append_nil] at hsplit
      exact settles_ok (hsplit ▸ hinv)
    | cons a after ih =>
      intro before b hsplit hinv
      rw [List.foldlM_cons, faultsAlong]
      refine (hround before a after b hsplit hinv).bind fun b' hinv' => ?_
      exact ih (before ++ [a]) b' (by simp [hsplit]) hinv'
  exact hfrom l [] b rfl hb

/-! ## Overflows -/

/-- A request overflows, which it does for the given cause only, or it fails with the first of
the faults, and if there is none succeeds with a result that is as it should be. -/
def SettlesUnless (cause : Prop) (x : Except (Fault ε) β) (faults : List ε) (good : β → Prop) :
    Prop :=
  (x = .error .overflow ∧ cause) ∨ Settles x (faults.map .refused) good

section Overflows

variable {cause : Prop} {x : Except (Fault ε) β} {faults : List ε} {good good' : β → Prop}

/-- Without the cause nothing overflows. -/
theorem SettlesUnless.settles (hx : SettlesUnless cause x faults good) (hnot : ¬ cause) :
    Settles x (faults.map .refused) good := by
  obtain ⟨-, hcause⟩ | hsettles := hx
  · exact absurd hcause hnot
  · exact hsettles

/-- A request that cannot overflow. -/
theorem Settles.lift {x : Except ε β} (hx : Settles x faults good) :
    SettlesUnless cause (Fault.lift x) faults good := by
  refine .inr ?_
  cases faults with
  | nil =>
    obtain ⟨b, rfl, hgood⟩ := hx
    exact ⟨b, rfl, hgood⟩
  | cons e rest =>
    rw [show x = .error e from hx]
    rfl

theorem settlesUnless_ok {b : β} (hgood : good b) :
    SettlesUnless cause (.ok b : Except (Fault ε) β) [] good :=
  .inr (settles_ok hgood)

theorem SettlesUnless.imp_cause {cause' : Prop} (hx : SettlesUnless cause x faults good)
    (hmore : cause → cause') : SettlesUnless cause' x faults good :=
  hx.imp_left fun hoverflow => ⟨hoverflow.1, hmore hoverflow.2⟩

/-- An overflow or a fault of a request comes before all of what is done with its result. -/
theorem SettlesUnless.bind {x : Except (Fault ε) α} {f : α → Except (Fault ε) β}
    {first rest : List ε} {good : α → Prop} (hx : SettlesUnless cause x first good)
    (hf : ∀ a, good a → SettlesUnless cause (f a) rest good') :
    SettlesUnless cause (x >>= f) (first ++ rest) good' := by
  obtain ⟨rfl, hcause⟩ | hsettles := hx
  · exact .inl ⟨rfl, hcause⟩
  · cases first with
    | nil =>
      obtain ⟨a, rfl, hgood⟩ := hsettles
      exact hf a hgood
    | cons e more =>
      rw [show x = .error (.refused e) from hsettles]
      exact .inr rfl

/-- The errors of a request in other words. -/
theorem SettlesUnless.mapError {δ : Type} (hx : SettlesUnless cause x faults good) (f : ε → δ) :
    SettlesUnless cause (x.mapError (Fault.map f)) (faults.map f) good := by
  obtain ⟨rfl, hcause⟩ | hsettles := hx
  · exact .inl ⟨rfl, hcause⟩
  · refine .inr ?_
    cases faults with
    | nil =>
      obtain ⟨b, rfl, hgood⟩ := hsettles
      exact ⟨b, rfl, hgood⟩
    | cons e rest =>
      rw [show x = .error (.refused e) from hsettles]
      rfl

/-- A request that succeeds has no faults. -/
theorem SettlesUnless.faults_eq_nil (hx : SettlesUnless cause x faults good) {b : β}
    (hb : x = .ok b) : faults = [] ∧ good b := by
  obtain ⟨hoverflow, -⟩ | hsettles := hx
  · cases hb.symm.trans hoverflow
  · obtain ⟨hnone, hgood⟩ := hsettles.faults_eq_nil hb
    exact ⟨List.map_eq_nil_iff.1 hnone, hgood⟩

/-- A request that is refused is refused for its first fault. -/
theorem SettlesUnless.head?_of_refused (hx : SettlesUnless cause x faults good) {e : ε}
    (he : x = .error (.refused e)) : faults.head? = some e := by
  obtain ⟨hoverflow, -⟩ | hsettles := hx
  · cases he.symm.trans hoverflow
  · have hhead := (hsettles.eq_error_iff _).1 he
    rw [List.head?_map, Option.map_eq_some_iff] at hhead
    obtain ⟨e', hhead, hsame⟩ := hhead
    cases hsame
    exact hhead

/-- A loop, with an invariant on the elements it has gone over. -/
theorem settlesUnless_foldlM {f : β → α → Except (Fault ε) β} {faults : List α → α → List ε}
    (inv : List α → β → Prop) (l : List α)
    (hround : ∀ before a after b, l = before ++ a :: after → inv before b →
      SettlesUnless cause (f b a) (faults before a) (inv (before ++ [a])))
    {b : β} (hb : inv [] b) :
    SettlesUnless cause (l.foldlM f b) (faultsAlong faults [] l) (inv l) := by
  have hfrom : ∀ after before b, l = before ++ after → inv before b →
      SettlesUnless cause (after.foldlM f b) (faultsAlong faults before after) (inv l) := by
    intro after
    induction after with
    | nil =>
      intro before b hsplit hinv
      rw [List.append_nil] at hsplit
      exact settlesUnless_ok (hsplit ▸ hinv)
    | cons a after ih =>
      intro before b hsplit hinv
      rw [List.foldlM_cons, faultsAlong]
      refine (hround before a after b hsplit hinv).bind fun b' hinv' => ?_
      exact ih (before ++ [a]) b' (by simp [hsplit]) hinv'
  exact hfrom l [] b rfl hb

end Overflows

end StateGraph
