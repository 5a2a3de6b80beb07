import StateGraph.Element.Json
import StateGraph.Snapshot.File
import StateGraph.Transition.Reopen
import StateGraph.Value.Json

set_option autoImplicit false

/-!
# The command line

Three subcommands look into snapshot files: `inspect` summarizes one,
`transitions` lists what leads out of a node, `check` looks at the distributions.
A command only reads files; its outcome is an exit code, a report, and what is
said of a failure.
-/

namespace StateGraph

/-- What is asked of the program. -/
inductive Command where
  /-- a summary of a snapshot -/
  | inspect (snapshot : FilePath)
  /-- the transitions from a node -/
  | transitions (snapshot : FilePath) (node : NodeId)
  /-- a check of all distributions, with the options of a file -/
  | check (snapshot : FilePath) (options : Option FilePath)
  deriving DecidableEq, Repr

/-- How a run of the program ends. -/
inductive ExitStatus where
  | success
  /-- the graph or the options do not allow what is asked -/
  | refused
  /-- the arguments do not make a command -/
  | usage
  /-- a file cannot be read -/
  | unreadable
  deriving DecidableEq, Repr

/-- The exit code of a status. -/
def ExitStatus.code : ExitStatus → UInt32
  | .success => 0
  | .refused => 1
  | .usage => 2
  | .unreadable => 3

/-- The result of a run of the program. -/
structure Outcome where
  status : ExitStatus
  /-- the text on standard output -/
  output : String
  /-- what is said of a failure, on standard error; the line that is logged there when a
  snapshot has been loaded is left out -/
  errors : String
  deriving DecidableEq, Repr

namespace Outcome

/-- A report. -/
def report (document : Json) : Outcome := ⟨.success, document.pretty ++ "\n", ""⟩

/-- A failure with its reason. -/
def failure (status : ExitStatus) (reason : String) : Outcome :=
  ⟨status, "", "Error: " ++ reason ++ "\n"⟩

/-- A graph that does not allow what is asked. -/
def refusal (e : CompileError) : Outcome := failure .refused e.message

end Outcome

namespace Command

/-! ## Files -/

/-- Loads the snapshot of a command. -/
def loadSnapshot (files : FileReader) (owner : Identity) (p : FilePath) : Except Outcome Graph :=
  (Graph.load files owner p).mapError fun e =>
    .failure .unreadable ("failed to load '" ++ p.display ++ "': " ++ e.message)

/-- Loads the snapshot of a command that is about a transition system. -/
def loadSystem (files : FileReader) (owner : Identity) (p : FilePath) :
    Except Outcome (TransitionSystem Value Value) := do
  (TransitionSystem.ofGraph (← loadSnapshot files owner p)).mapError .refusal

/-- A file that cannot be read as text. -/
def unreadableOptions (p : FilePath) (reason : String) : Outcome :=
  .failure .unreadable ("failed to read '" ++ p.display ++ "': " ++ reason)

/-- Reads the options of a command; without a file they are the standard ones. -/
def readOptions (files : FileReader) : Option FilePath → Except Outcome CompileOptions
  | none => .ok .standard
  | some p => do
    let bytes ← (files p).mapError (unreadableOptions p)
    match ofUtf8? bytes with
    | none => .error (unreadableOptions p "not valid UTF-8")
    | some text =>
      match CompileOptions.ofJson? text with
      | some options => .ok options
      | none =>
        .error (.failure .refused
          ("invalid options file '" ++ p.display ++ "': not an options document"))

/-! ## Reports -/

/-- The summary of a graph. -/
def summary (g : Graph) : Json :=
  .sortedObject [
    ("nodes", .int g.nodeCount),
    ("edges", .int g.edgeCount),
    ("node_properties", .array (g.nodeCatalog.names.map .string)),
    ("edge_properties", .array (g.edgeCatalog.names.map .string)),
    ("graph_properties", .sortedObject (g.attributes.toList.map fun (name, v) => (name, v.toJson)))]

/-- The report of a transition. -/
def row (t : TransitionSystem Value Value) (transition : Transition) : Json :=
  .sortedObject [
    ("target", transition.target.toJson),
    ("key", .int transition.key.toNat),
    ("action", transition.action.toJson),
    ("probability", ((transition.probability.map Json.ofBinary64).getD .null)),
    ("state", (((t.stateOf? transition.target).map Value.toJson).getD .null))]

/-- The report of a check that succeeds. -/
def approval (t : TransitionSystem Value Value) (options : CompileOptions) : Json :=
  .sortedObject [
    ("ok", .bool true),
    ("kind", t.branching.toJson),
    ("probability_tolerance", .ofBinary64 options.tolerance)]

/-! ## Runs -/

/-- Does what a command asks, or says why not. -/
def perform (files : FileReader) (owner : Identity) : Command → Except Outcome Json
  | .inspect p => do return summary (← loadSnapshot files owner p)
  | .transitions p n => do
    let t ← loadSystem files owner p
    match t.transitions n with
    | .ok ts => return .array (ts.map (row t))
    | .error e => throw (.refusal (.graph e))
  | .check p optionsPath => do
    let options ← readOptions files optionsPath
    let t ← loadSystem files owner p
    match t.checkDistributions options with
    | .ok () => return approval t options
    | .error e => throw (.refusal e)

/-- Runs a command. -/
def run (files : FileReader) (owner : Identity) (c : Command) : Outcome :=
  match c.perform files owner with
  | .ok document => .report document
  | .error outcome => outcome

/-- The files that a command may read. -/
def files : Command → List FilePath
  | .inspect p => [p]
  | .transitions p _ => [p]
  | .check p options => p :: options.toList

end Command

end StateGraph
