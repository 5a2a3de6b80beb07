import StateGraph.Checksum
import StateGraph.Snapshot.Payload

set_option autoImplicit false

/-!
# The frame of a snapshot file

A file begins with eight fixed bytes, the version of the format in 16 bits, and
the checksum of the payload; the payload is the rest.  A file is opened in the
same order, and its payload is not looked at unless its checksum is right.

The checksum is an argument: `encode` and `decode` take the one that is in use.
-/

namespace StateGraph

namespace Frame

/-- The bytes every snapshot file begins with. -/
def magic : Bytes := [0x54, 0x53, 0x47, 0x52, 0x41, 0x50, 0x48, 0x00]

/-- The version of the format. -/
def version : UInt16 := 1

/-- Number of bytes before the payload. -/
def headerLength : Nat := 42

/-- Puts a payload into its frame. -/
def wrap (digest : Bytes → Digest) (payload : Bytes) : Bytes :=
  magic ++ Format.word16.write version ++ (digest payload).toList ++ payload

/-- The payload of a frame. -/
def unwrap (digest : Bytes → Digest) (bs : Bytes) : Except SnapshotError Bytes :=
  if bs.length < headerLength then .error (.truncatedHeader bs.length headerLength)
  else if bs.take 8 ≠ magic then .error .badMagic
  else
    let found := (Format.numberOf ((bs.drop 8).take 2)).toUInt16
    if found ≠ version then .error (.unknownVersion found version)
    else
      let payload := bs.drop headerLength
      if (digest payload).toList ≠ (bs.drop 10).take 32 then .error .checksumMismatch
      else .ok payload

end Frame

namespace Snapshot

/-- The bytes of a graph, with the given checksum. -/
def encodeWith (digest : Bytes → Digest) (g : Graph) : Bytes :=
  Frame.wrap digest (Payload.write (ofGraph g))

/-- The graph in a byte sequence, with the given checksum. -/
def decodeWith (digest : Bytes → Digest) (owner : Identity) (bs : Bytes) :
    Except SnapshotError Graph :=
  match Frame.unwrap digest bs with
  | .error e => .error e
  | .ok payload =>
    match Payload.read payload with
    | .error fault => .error (.payload fault)
    | .ok s => s.toGraph owner

/-- The bytes of a graph. -/
def encode (g : Graph) : Bytes := encodeWith checksum g

/-- The graph in a byte sequence. -/
def decode (owner : Identity) (bs : Bytes) : Except SnapshotError Graph :=
  decodeWith checksum owner bs

/-- The checksum of what is stored of a graph. -/
def fingerprint (g : Graph) : Digest := checksum (Payload.write (ofGraph g))

end Snapshot

end StateGraph
