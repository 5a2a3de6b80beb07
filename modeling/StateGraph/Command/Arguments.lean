set_option autoImplicit false

/-!
# Arguments of a subcommand

A subcommand takes one operand and at most one option with a value.  The value
may follow as an argument of its own, or be joined to the option, with or without
an equals sign after the letter and with one after the name.  Nothing may be given
twice, and after `--` everything is an operand.  A request for help ends the
reading at once, as does the first mistake.
-/

namespace StateGraph

/-- An option of a subcommand and how its value is read. -/
structure OptionSpec (β : Type) where
  letter : Char
  name : String
  read : String → Option β

/-- Why arguments do not make a command. -/
inductive ArgumentStop where
  /-- they are wrong -/
  | mistake
  /-- they ask for help -/
  | help
  deriving DecidableEq, Repr

/-- What an argument is. -/
inductive Argument where
  /-- the end of the options -/
  | terminator
  /-- a request for help -/
  | help
  /-- an option that does not exist -/
  | unknown
  /-- the option with its value -/
  | joined (value : String)
  /-- the option, its value to follow -/
  | separate
  /-- an operand -/
  | operand (text : String)
  deriving DecidableEq, Repr

namespace Argument

/-- An argument that begins with two dashes, without these. -/
def ofLong (name : Option String) (text : List Char) : Argument :=
  let found := String.ofList (text.takeWhile fun c => c != '=')
  match text.dropWhile fun c => c != '=' with
  | [] =>
    if name = some found then .separate
    else if found = "help" then .help
    else .unknown
  | _ :: value => if name = some found then .joined (.ofList value) else .unknown

/-- An argument that begins with one dash, without it. -/
def ofShort (letter : Option Char) (first : Char) (rest : List Char) : Argument :=
  if letter = some first then
    match rest with
    | [] => .separate
    | '=' :: value => .joined (.ofList value)
    | value => .joined (.ofList value)
  else if first = 'h' then .help
  else .unknown

/-- What an argument is for a subcommand with the given option.  A single dash is
an operand. -/
def classify {β : Type} (spec : Option (OptionSpec β)) (arg : String) : Argument :=
  match arg.toList with
  | ['-', '-'] => .terminator
  | '-' :: '-' :: text => ofLong (spec.map (·.name)) text
  | '-' :: first :: rest => ofShort (spec.map (·.letter)) first rest
  | _ => .operand arg

/-- Whether an argument can follow an option as its value. -/
def canBeValue (arg : String) : Bool :=
  match arg.toList with
  | '-' :: _ :: _ => false
  | _ => true

end Argument

/-- What was found among the arguments of a subcommand. -/
structure Arguments (β : Type) where
  operand : Option String := none
  value : Option β := none

namespace Arguments

variable {β : Type}

/-- Adds an operand. -/
def addOperand (found : Arguments β) (text : String) : Except ArgumentStop (Arguments β) :=
  if found.operand.isSome || text.isEmpty then .error .mistake
  else .ok { found with operand := some text }

/-- Adds the value of the option. -/
def addValue (spec : OptionSpec β) (found : Arguments β) (text : String) :
    Except ArgumentStop (Arguments β) :=
  match found.value, spec.read text with
  | none, some value => .ok { found with value := some value }
  | _, _ => .error .mistake

/-- Reads arguments from the front. -/
def readFrom (spec : Option (OptionSpec β)) (found : Arguments β) :
    List String → Except ArgumentStop (Arguments β)
  | [] => .ok found
  | arg :: rest =>
    match Argument.classify spec arg, spec, rest with
    | .terminator, _, rest => rest.foldlM addOperand found
    | .help, _, _ => .error .help
    | .operand text, _, rest => do readFrom spec (← found.addOperand text) rest
    | .joined text, some o, rest => do readFrom spec (← addValue o found text) rest
    | .separate, some o, text :: rest =>
      if Argument.canBeValue text then do readFrom spec (← addValue o found text) rest
      else .error .mistake
    | _, _, _ => .error .mistake

/-- The operand, which must be there, and the value of the option. -/
def read (spec : Option (OptionSpec β)) (args : List String) :
    Except ArgumentStop (String × Option β) := do
  let found ← readFrom spec {} args
  match found.operand with
  | some operand => return (operand, found.value)
  | none => throw .mistake

end Arguments

end StateGraph
