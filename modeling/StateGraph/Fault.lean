set_option autoImplicit false

/-!
# Faults

Keys of parallel edges are 32-bit words that are counted up one by one.  A word
that has no successor is not an error that a caller is handed: the program stops
where it stands.  So an operation that counts keys ends in one of three ways.  It
yields its result, it refuses the request with an error, or it overflows.
-/

namespace StateGraph

/-- The next 32-bit word, if there is one. -/
def nextWord? (n : UInt32) : Option UInt32 :=
  if n.toNat + 1 < UInt32.size then some (n + 1) else none

/-- Why an operation does not yield a result. -/
inductive Fault (ε : Type) where
  /-- the request is refused with an error -/
  | refused (error : ε)
  /-- a 32-bit word has no successor, and the program stops -/
  | overflow
  deriving DecidableEq, Repr

namespace Fault

variable {ε δ α : Type}

/-- Changes the error of a refusal. -/
def map (f : ε → δ) : Fault ε → Fault δ
  | refused e => refused (f e)
  | overflow => overflow

/-- An operation that cannot overflow as one that might. -/
def lift (x : Except ε α) : Except (Fault ε) α := x.mapError refused

/-- A number that must have been there. -/
def checked (x : Option α) : Except (Fault ε) α :=
  match x with
  | some a => .ok a
  | none => .error overflow

@[simp] theorem lift_ok (a : α) : lift (.ok a : Except ε α) = .ok a := rfl

@[simp] theorem lift_error (e : ε) : lift (.error e : Except ε α) = .error (refused e) := rfl

@[simp] theorem checked_some (a : α) : (checked (some a) : Except (Fault ε) α) = .ok a := rfl

@[simp] theorem checked_none : (checked none : Except (Fault ε) α) = .error overflow := rfl

theorem lift_eq_ok_iff {x : Except ε α} {a : α} : lift x = .ok a ↔ x = .ok a := by
  cases x <;> simp

theorem lift_map_eq_ok_iff {β : Type} {x : Except ε α} {f : α → β} {b : β} :
    lift (x.map f) = .ok b ↔ ∃ a, x = .ok a ∧ f a = b := by
  cases x <;> simp [Except.map]

end Fault

/-- The next word is one more, and only the largest word has none. -/
theorem nextWord?_eq (n : UInt32) :
    nextWord? n = if n = 0xFFFFFFFF then none else some (n + 1) := by
  have hn : n = 0xFFFFFFFF ↔ ¬ n.toNat + 1 < UInt32.size := by
    rw [← UInt32.toNat_inj]
    have := n.toNat_lt
    simp [UInt32.size]
    omega
  by_cases h : n.toNat + 1 < UInt32.size <;> simp [nextWord?, hn, h]

end StateGraph
