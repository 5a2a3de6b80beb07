import StateGraph.GraphError
import StateGraph.Text.Utf8

set_option autoImplicit false

/-!
# What can be wrong with a stored graph

A stored graph passes through several layers: the file and its name, the frame
around the payload, the payload's bytes, and the graph they describe.  Each
constructor is one cause in one of the layers; the wording is in the `message`
functions alone.
-/

namespace StateGraph

/-- Why the bytes of a payload are not a snapshot. -/
inductive PayloadFault where
  /-- the bytes end early -/
  | ended
  /-- a value with a tag that no kind of value has -/
  | unknownTag (tag : UInt32)
  /-- a truth value that is neither 0 nor 1 -/
  | notBoolean (byte : UInt8)
  /-- a text that is not UTF-8 -/
  | notUtf8 (fault : Utf8.Fault)
  deriving DecidableEq, Repr

/-- The text of a payload fault. -/
def PayloadFault.message : PayloadFault → String
  | .ended => "io error"
  | .unknownTag tag =>
    "invalid value: integer \x60" ++ toString tag.toNat ++
      "\x60, expected variant index 0 <= i < 7"
  | .notBoolean byte =>
    "invalid u8 while decoding bool, expected 0 or 1, found " ++ toString byte.toNat
  | .notUtf8 fault =>
    "string is not valid utf8: " ++
      match fault.width with
      | some n =>
        "invalid utf-8 sequence of " ++ toString n ++ " bytes from index " ++
          toString fault.validUpTo
      | none => "incomplete utf-8 byte sequence from index " ++ toString fault.validUpTo

/-- Why a graph cannot be stored or restored. -/
inductive SnapshotError where
  /-- a file cannot be read or written, with the system's reason -/
  | io (reason : String)
  /-- the payload is not a snapshot -/
  | payload (fault : PayloadFault)
  /-- the file name has no extension that is known; it comes with its point -/
  | unsupportedExtension (extension : String)
  /-- the file name has the extension of a format that is not available -/
  | formatNotAvailable (format : String)
  /-- fewer bytes than a header has -/
  | truncatedHeader (length expected : Nat)
  /-- the bytes begin otherwise than a snapshot does -/
  | badMagic
  /-- a version of the format that is not known -/
  | unknownVersion (version known : UInt16)
  /-- the checksum is not that of the payload -/
  | checksumMismatch
  /-- the count of edges is not that of the adjacency -/
  | edgeCountMismatch (stored : UInt64) (actual : Nat)
  /-- a snapshot of another kind of structure -/
  | wrongKind (found : String)
  /-- the parts do not make a graph -/
  | reconstruction (error : GraphError)
  deriving DecidableEq, Repr

namespace SnapshotError

/-- Whether the error says that the format of a file is not supported. -/
def isUnsupportedFormat : SnapshotError → Bool
  | .unsupportedExtension _ => true
  | .formatNotAvailable _ => true
  | _ => false

/-- Whether the bytes are damaged or were never a snapshot. -/
def isCorruption : SnapshotError → Bool
  | .truncatedHeader .. => true
  | .badMagic => true
  | .unknownVersion .. => true
  | .checksumMismatch => true
  | .edgeCountMismatch .. => true
  | _ => false

/-- The text of an error. -/
def message : SnapshotError → String
  | .io reason => "I/O error: " ++ reason
  | .payload fault => "serialization error: " ++ fault.message
  | .unsupportedExtension extension =>
    "unsupported format: extension '" ++ extension ++ "'; supported extensions: ['.graph']"
  | .formatNotAvailable format =>
    "unsupported format: save/load for " ++ format ++ " is not implemented"
  | .truncatedHeader length expected =>
    "corrupted snapshot: truncated header: " ++ toString length ++ " bytes, expected at least " ++
      toString expected
  | .badMagic => "corrupted snapshot: bad magic; not a tsgraph snapshot"
  | .unknownVersion version known =>
    "corrupted snapshot: unsupported snapshot version " ++ toString version.toNat ++
      " (this build reads " ++ toString known.toNat ++ ")"
  | .checksumMismatch => "corrupted snapshot: payload checksum mismatch"
  | .edgeCountMismatch stored actual =>
    "corrupted snapshot: edge count " ++ toString stored.toNat ++
      " does not match adjacency (" ++ toString actual ++ " edges)"
  | .wrongKind found => "expected a 'multidigraph' snapshot, found '" ++ found ++ "'"
  | .reconstruction error => "reconstruction error: " ++ error.message

end SnapshotError

end StateGraph
