import StateGraph.Text.Utf8

set_option autoImplicit false

/-!
# The checksum of a payload

Payloads are protected by a tree hash of 32 bytes.  The input is cut into chunks
of 1024 bytes and each chunk into blocks of 64.  A compression function turns a
chaining value of eight words and a block of sixteen words into sixteen words, of
which the first eight chain on.  The chunks are the leaves of a binary tree whose
left subtrees are full, and the compression of the root gives the checksum.

The function is BLAKE3 in its plain mode.  Nothing about snapshots depends on
which function it is: the frame takes the checksum as an argument.
-/

namespace StateGraph

/-- A checksum: 32 bytes. -/
abbrev Digest : Type := Vector UInt8 32

namespace Blake3

/-- Eight words that chain one compression to the next. -/
abbrev Chain : Type := Vector UInt32 8

/-- Sixteen words: a block of input, or the state of a compression. -/
abbrev Words : Type := Vector UInt32 16

/-- The chaining value every chunk begins with. -/
def initial : Chain := #v[0x6A09E667, 0xBB67AE85, 0x3C6EF372, 0xA54FF53A,
  0x510E527F, 0x9B05688C, 0x1F83D9AB, 0x5BE0CD19]

/-- Flag of the first block of a chunk. -/
def chunkStart : UInt32 := 1

/-- Flag of the last block of a chunk. -/
def chunkEnd : UInt32 := 2

/-- Flag of an inner node of the tree. -/
def parent : UInt32 := 4

/-- Flag of the root of the tree. -/
def root : UInt32 := 8

/-- Rotation to the right. -/
def rotate (x : UInt32) (n : UInt32) : UInt32 := (x >>> n) ||| (x <<< (32 - n))

/-- Mixes two words of the block into a column or diagonal of the state. -/
def mix (s : Words) (a b c d : Fin 16) (x y : UInt32) : Words :=
  let s := s.set a (s[a] + s[b] + x)
  let s := s.set d (rotate (s[d] ^^^ s[a]) 16)
  let s := s.set c (s[c] + s[d])
  let s := s.set b (rotate (s[b] ^^^ s[c]) 12)
  let s := s.set a (s[a] + s[b] + y)
  let s := s.set d (rotate (s[d] ^^^ s[a]) 8)
  let s := s.set c (s[c] + s[d])
  s.set b (rotate (s[b] ^^^ s[c]) 7)

/-- One round: the four columns, then the four diagonals. -/
def round (s m : Words) : Words :=
  let s := mix s 0 4 8 12 m[0] m[1]
  let s := mix s 1 5 9 13 m[2] m[3]
  let s := mix s 2 6 10 14 m[4] m[5]
  let s := mix s 3 7 11 15 m[6] m[7]
  let s := mix s 0 5 10 15 m[8] m[9]
  let s := mix s 1 6 11 12 m[10] m[11]
  let s := mix s 2 7 8 13 m[12] m[13]
  mix s 3 4 9 14 m[14] m[15]

/-- The order in which the next round takes the words of the block. -/
def permute (m : Words) : Words :=
  #v[m[2], m[6], m[3], m[10], m[7], m[0], m[4], m[13],
    m[1], m[11], m[12], m[5], m[9], m[14], m[15], m[8]]

/-- Rounds that are left, each on the permuted block of the one before. -/
def rounds : Nat → Words → Words → Words
  | 0, s, _ => s
  | n + 1, s, m => rounds n (round s m) (permute m)

/-- An input to the compression function. -/
structure Node where
  chain : Chain
  block : Words
  counter : UInt64
  length : UInt32
  flags : UInt32

/-- The compression function. -/
def Node.compress (n : Node) : Words :=
  let h := n.chain
  let s := rounds 7
    #v[h[0], h[1], h[2], h[3], h[4], h[5], h[6], h[7],
      initial[0], initial[1], initial[2], initial[3],
      n.counter.toUInt32, (n.counter >>> 32).toUInt32, n.length, n.flags] n.block
  #v[s[0] ^^^ s[8], s[1] ^^^ s[9], s[2] ^^^ s[10], s[3] ^^^ s[11],
    s[4] ^^^ s[12], s[5] ^^^ s[13], s[6] ^^^ s[14], s[7] ^^^ s[15],
    s[8] ^^^ h[0], s[9] ^^^ h[1], s[10] ^^^ h[2], s[11] ^^^ h[3],
    s[12] ^^^ h[4], s[13] ^^^ h[5], s[14] ^^^ h[6], s[15] ^^^ h[7]]

/-- The words that chain on. -/
def Node.chainOn (n : Node) : Chain := n.compress.take 8

/-- The byte at a position before `stop`; zero from there on. -/
def byteAt (input : Array UInt8) (stop i : Nat) : UInt32 :=
  if i < stop then (input.getD i 0).toUInt32 else 0

/-- The block that begins at a position, padded with zeros. -/
def blockAt (input : Array UInt8) (stop start : Nat) : Words :=
  Vector.ofFn fun i =>
    let p := start + 4 * i.val
    byteAt input stop p ||| (byteAt input stop (p + 1) <<< 8) |||
      (byteAt input stop (p + 2) <<< 16) ||| (byteAt input stop (p + 3) <<< 24)

/-- The last compression of a chunk; the blocks before it are chained. -/
def chunk (input : Array UInt8) (index : Nat) : Node :=
  let start := 1024 * index
  let stop := min (start + 1024) input.size
  let before := (stop - start - 1) / 64
  let startFlag (i : Nat) : UInt32 := if i = 0 then chunkStart else 0
  let chain := (List.range before).foldl (fun chain i =>
    (Node.mk chain (blockAt input stop (start + 64 * i)) index.toUInt64 64 (startFlag i)).chainOn)
    initial
  let last := start + 64 * before
  ⟨chain, blockAt input stop last, index.toUInt64, (stop - last).toUInt32,
    startFlag before ||| chunkEnd⟩

/-- Number of chunks in the left subtree above `n` chunks: the largest power of
two that leaves something for the right one. -/
def leftSize (n : Nat) : Nat := Nat.pow 2 (n - 1).log2

theorem leftSize_pos (n : Nat) : 0 < leftSize n := Nat.two_pow_pos _

theorem leftSize_lt {n : Nat} (h : 1 < n) : leftSize n < n := by
  have : leftSize n ≤ n - 1 := Nat.log2_self_le (by omega)
  omega

/-- The node above `n` chunks from the chunk `first` on. -/
def subtree (input : Array UInt8) (first n : Nat) : Node :=
  if _h : 1 < n then
    let left := (subtree input first (leftSize n)).chainOn
    let right := (subtree input (first + leftSize n) (n - leftSize n)).chainOn
    ⟨initial, left ++ right, 0, 64, parent⟩
  else chunk input first
termination_by n
decreasing_by
  · exact leftSize_lt _h
  · have := leftSize_pos n
    omega

/-- The checksum of a byte sequence. -/
def digest (bs : Bytes) : Digest :=
  let input := bs.toArray
  let top := subtree input 0 ((input.size + 1023) / 1024)
  let words := { top with flags := top.flags ||| root }.chainOn
  Vector.ofFn fun i => (words[i.val / 4] >>> (8 * (i.val % 4).toUInt32)).toUInt8

end Blake3

/-- The checksum of a payload. -/
def checksum (payload : Bytes) : Digest := Blake3.digest payload

/-! ## Hexadecimal form -/

/-- The lower-case hexadecimal digits of bytes. -/
def hexText (bs : Bytes) : String :=
  String.ofList (bs.flatMap fun b => [Nat.digitChar (b.toNat / 16), Nat.digitChar (b.toNat % 16)])

end StateGraph
