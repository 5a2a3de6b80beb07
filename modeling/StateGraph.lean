import StateGraph.Main
import StateGraph.FileStore.Directory
import StateGraph.Graph.Export
import StateGraph.Transition.Compile
import StateGraph.Proofs.RoundTrip
import StateGraph.Proofs.Compilation.Represents
import StateGraph.Proofs.Frame
import StateGraph.Proofs.Reads
import StateGraph.Proofs.Compilation.Reopening
import StateGraph.Proofs.Compilation.Storing
import StateGraph.Proofs.Regrouping
import StateGraph.Proofs.Compilation.Navigation
import StateGraph.Proofs.Binary64
import StateGraph.Proofs.Compilation.Rechecking
import StateGraph.Proofs.Format.Delimiting
import StateGraph.Proofs.Payload.Delimiting
import StateGraph.Proofs.EdgeViews
import StateGraph.Proofs.Copies
import StateGraph.Proofs.Paths
import StateGraph.Proofs.Parts
import StateGraph.Proofs.NormalForm
import StateGraph.Proofs.Increments
import StateGraph.Proofs.Compilation.Answers
import StateGraph.Proofs.Numbering
import StateGraph.Proofs.Batches
import StateGraph.Proofs.Compilation.Isolation
import StateGraph.Proofs.Compilation.Bijection
import StateGraph.Proofs.Compilation.Tolerance
import StateGraph.Proofs.Export
import StateGraph.Proofs.Distributions
import StateGraph.Proofs.Declarations
import StateGraph.Proofs.Loading
import StateGraph.Proofs.Commands
