import StateGraph.Command
import StateGraph.Command.Arguments

set_option autoImplicit false

/-!
# Commands from arguments

The first argument names the subcommand, by its whole name.  The subcommand
decides what the other arguments can be.  Help can be asked for on the program,
on a subcommand, and on asking for help.
-/

namespace StateGraph.Command

/-- A digit and its value. -/
def digit? (c : Char) : Option Nat :=
  if '0' ≤ c ∧ c ≤ '9' then some (c.toNat - '0'.toNat) else none

/-- The number of a sequence of digits, of which there must be one. -/
def decimal? (cs : List Char) : Option Nat :=
  if cs.isEmpty then none
  else cs.foldlM (fun n c => (digit? c).map fun d => 10 * n + d) 0

/-- A node number: digits, which a sign may precede. -/
def nodeNumber? (text : String) : Option NodeId := do
  let n : Int ← match text.toList with
    | '+' :: cs => (decimal? cs).map Int.ofNat
    | '-' :: cs => (decimal? cs).map fun n => -Int.ofNat n
    | cs => (decimal? cs).map Int.ofNat
  if 0 ≤ n ∧ n < UInt32.size then some ⟨n.toNat.toUInt32⟩ else none

/-- The path in an argument, which must not be empty. -/
def path? (text : String) : Option FilePath :=
  if text.isEmpty then none else some (.ofString text)

/-- The option that gives a node. -/
def nodeOption : OptionSpec NodeId := ⟨'n', "node", nodeNumber?⟩

/-- The option that names a file of options. -/
def optionsOption : OptionSpec FilePath := ⟨'o', "options", path?⟩

/-- The three subcommands. -/
inductive Subcommand where
  | inspect
  | transitions
  | check
  deriving DecidableEq, Repr

namespace Subcommand

/-- The name of a subcommand. -/
def name : Subcommand → String
  | .inspect => "inspect"
  | .transitions => "transitions"
  | .check => "check"

/-- The subcommand with a name. -/
def ofName? (s : String) : Option Subcommand :=
  [inspect, transitions, check].find? fun c => c.name == s

/-- The command that the arguments of a subcommand make. -/
def read (c : Subcommand) (args : List String) : Except ArgumentStop Command :=
  match c with
  | .inspect => do
    let (snapshot, _) ← Arguments.read (none : Option (OptionSpec Unit)) args
    return .inspect (.ofString snapshot)
  | .transitions => do
    let (snapshot, node) ← Arguments.read (some nodeOption) args
    match node with
    | some n => return .transitions (.ofString snapshot) n
    | none => throw .mistake
  | .check => do
    let (snapshot, options) ← Arguments.read (some optionsOption) args
    return .check (.ofString snapshot) options

/-- How a subcommand is called. -/
def help : Subcommand → String
  | .inspect =>
    "Summarize a snapshot: counts, declared properties, metadata\n\n" ++
    "Usage: tsgraph inspect <SNAPSHOT>\n\n" ++
    "Arguments:\n" ++
    "  <SNAPSHOT>  Path to the snapshot (.graph)\n\n" ++
    "Options:\n" ++
    "  -h, --help  Print help\n"
  | .transitions =>
    "List the outgoing transitions of a node\n\n" ++
    "Usage: tsgraph transitions --node <NODE> <SNAPSHOT>\n\n" ++
    "Arguments:\n" ++
    "  <SNAPSHOT>  Path to the snapshot (.graph)\n\n" ++
    "Options:\n" ++
    "  -n, --node <NODE>  Node id\n" ++
    "  -h, --help         Print help\n"
  | .check =>
    "Re-validate the probability distributions of a compiled graph\n\n" ++
    "Usage: tsgraph check [OPTIONS] <SNAPSHOT>\n\n" ++
    "Arguments:\n" ++
    "  <SNAPSHOT>  Path to the snapshot (.graph)\n\n" ++
    "Options:\n" ++
    "  -o, --options <OPTIONS>  JSON file with compiler options (default tolerance otherwise)\n" ++
    "  -h, --help               Print help\n"

end Subcommand

/-- What help can be asked for. -/
inductive Topic where
  /-- the program -/
  | program
  /-- a subcommand that makes a command -/
  | subcommand (c : Subcommand)
  /-- the asking for help -/
  | help
  deriving DecidableEq, Repr

namespace Topic

/-- The topic with a name. -/
def ofName? (s : String) : Option Topic :=
  if s = "help" then some .help else (Subcommand.ofName? s).map .subcommand

/-- What is told about a topic. -/
def text : Topic → String
  | .program =>
    "Transition graph snapshot tools\n\n" ++
    "Usage: tsgraph <COMMAND>\n\n" ++
    "Commands:\n" ++
    "  inspect      Summarize a snapshot: counts, declared properties, metadata\n" ++
    "  transitions  List the outgoing transitions of a node\n" ++
    "  check        Re-validate the probability distributions of a compiled graph\n" ++
    "  help         Print this message or the help of the given subcommand(s)\n\n" ++
    "Options:\n" ++
    "  -h, --help  Print help\n"
  | .subcommand c => c.help
  | .help =>
    "Print this message or the help of the given subcommand(s)\n\n" ++
    "Usage: tsgraph help [COMMAND]...\n\n" ++
    "Arguments:\n" ++
    "  [COMMAND]...  Print help for the subcommand(s)\n"

end Topic

/-- What arguments come to. -/
inductive Request where
  /-- a command -/
  | command (c : Command)
  /-- help on a topic -/
  | help (topic : Topic)
  /-- nothing that can be done -/
  | mistake
  deriving DecidableEq, Repr

/-- What the arguments of the program come to. -/
def Request.ofArguments : List String → Request
  | [] => .mistake
  | "help" :: [] => .help .program
  | "help" :: [name] =>
    match Topic.ofName? name with
    | some topic => .help topic
    | none => .mistake
  | "help" :: _ => .mistake
  | name :: args =>
    match Subcommand.ofName? name with
    | some c =>
      match c.read args with
      | .ok asked => .command asked
      | .error .help => .help (.subcommand c)
      | .error .mistake => .mistake
    | none =>
      match Argument.classify (none : Option (OptionSpec Unit)) name with
      | .help => .help .program
      | _ => .mistake

/-- Does what the arguments of the program come to. -/
def Request.respond (files : FileReader) (owner : Identity) : Request → Outcome
  | .command c => c.run files owner
  | .help topic => ⟨.success, topic.text, ""⟩
  | .mistake => ⟨.usage, "", Topic.program.text⟩

end StateGraph.Command
