import StateGraph.Command.Reader

set_option autoImplicit false

/-!
# The program

Reads the files that the command may need, runs the command on them, and prints
what comes out.
-/

namespace StateGraph

/-- Reads a file of the system. -/
def readSystemFile (p : FilePath) : IO (FilePath × Except String Bytes) := do
  try
    let content ← IO.FS.readBinFile p.display
    return (p, .ok content.data.toList)
  catch e => return (p, .error (toString e))

/-- The files that have been read. -/
def readerOf (contents : List (FilePath × Except String Bytes)) : FileReader := fun p =>
  match contents.find? fun entry => decide (entry.1 = p) with
  | some entry => entry.2
  | none => .error "not read"

end StateGraph

open StateGraph in
/-- Runs the program on its arguments. -/
def main (args : List String) : IO UInt32 := do
  let request := Command.Request.ofArguments args
  let contents ← match request with
    | .command c => c.files.mapM readSystemFile
    | _ => pure []
  let outcome := request.respond (readerOf contents) ⟨0⟩
  IO.print outcome.output
  IO.eprint outcome.errors
  return outcome.status.code
