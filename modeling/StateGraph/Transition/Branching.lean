import StateGraph.Json.Reader

set_option autoImplicit false

/-!
# How a transition system branches

A state and an action determine one successor, a set of successors, or a
probability distribution over successors.
-/

namespace StateGraph

/-- What a state and an action determine. -/
inductive Branching where
  /-- one successor -/
  | deterministic
  /-- a set of successors -/
  | qualitative
  /-- a distribution over successors -/
  | quantitative
  deriving DecidableEq, Repr, Inhabited

namespace Branching

/-- A deterministic system stays deterministic whatever else is said of it. -/
def ofFlags (deterministic qualitative : Bool) : Branching :=
  match deterministic, qualitative with
  | true, _ => .deterministic
  | false, true => .qualitative
  | false, false => .quantitative

/-- The name of a kind of branching. -/
def name : Branching → String
  | .deterministic => "deterministic"
  | .qualitative => "qualitative"
  | .quantitative => "quantitative"

/-- The kind of branching with a name. -/
def ofName? (s : String) : Option Branching :=
  if s = "deterministic" then some .deterministic
  else if s = "qualitative" then some .qualitative
  else if s = "quantitative" then some .quantitative
  else none

/-- Every kind is found under its own name, and under no other. -/
theorem ofName?_eq_some_iff (s : String) (b : Branching) : ofName? s = some b ↔ s = b.name := by
  constructor
  · intro h
    unfold ofName? at h
    split at h
    · rename_i hs; cases h; exact hs
    · split at h
      · rename_i hs; cases h; exact hs
      · split at h
        · rename_i hs; cases h; exact hs
        · cases h
  · rintro rfl
    cases b <;> decide

/-- The message for a name that no kind has. -/
def unknownNameMessage (s : String) : String := "unknown transition kind '" ++ s ++ "'"

/-- Whether transitions carry probabilities. -/
def isWeighted : Branching → Bool
  | .quantitative => true
  | _ => false

/-- The document of a kind of branching. -/
def toJson (b : Branching) : Json := .string b.name

/-- The kind that a document stands for: its name, or an object that has null
under its name and nothing else. -/
def ofTree? : JsonTree → Option Branching
  | .string (some s) => ofName? s
  | .object [(some s, .null)] => ofName? s
  | _ => none

/-- Reads a kind of branching from a text. -/
def ofJson? (text : String) : Option Branching := do ofTree? (← JsonTree.read? text)

end Branching

end StateGraph
