import JobGraph.Number.Power
import JobGraph.Text.Bytes

/-!
# BLAKE3

The 256-bit BLAKE3 digest of a list of bytes.  The input is cut into chunks of 1024 bytes; each
chunk is compressed block by block, and the chunks are the leaves of a binary tree whose left half
is the largest power of two of chunks that leaves something for the right half.
-/

namespace JobGraph.Blake3

/-- The words from which every compression starts. -/
def initialWords : List UInt32 :=
  [0x6A09E667, 0xBB67AE85, 0x3C6EF372, 0xA54FF53A, 0x510E527F, 0x9B05688C, 0x1F83D9AB, 0x5BE0CD19]

/-- The order in which a round takes the message words of the round before. -/
def permutation : List Nat := [2, 6, 3, 10, 7, 0, 4, 13, 1, 11, 12, 5, 9, 14, 15, 8]

def chunkStart : UInt32 := 1
def chunkEnd : UInt32 := 2
def parentNode : UInt32 := 4
def rootNode : UInt32 := 8

/-- The bytes of a chunk and of a block. -/
def chunkSize : Nat := 1024
def blockSize : Nat := 64

def rotateRight (x : UInt32) (n : UInt32) : UInt32 := (x >>> n) ||| (x <<< (32 - n))

/-- Mixes two message words into four words of the state. -/
def mix (state : Array UInt32) (a b c d : Nat) (x y : UInt32) : Array UInt32 :=
  let va := state.getD a 0 + state.getD b 0 + x
  let vd := rotateRight (state.getD d 0 ^^^ va) 16
  let vc := state.getD c 0 + vd
  let vb := rotateRight (state.getD b 0 ^^^ vc) 12
  let va := va + vb + y
  let vd := rotateRight (vd ^^^ va) 8
  let vc := vc + vd
  let vb := rotateRight (vb ^^^ vc) 7
  (((state.setIfInBounds a va).setIfInBounds b vb).setIfInBounds c vc).setIfInBounds d vd

/-- Mixes the columns and then the diagonals of the state. -/
def round (state message : Array UInt32) : Array UInt32 :=
  let word := fun i => message.getD i 0
  let state := mix state 0 4 8 12 (word 0) (word 1)
  let state := mix state 1 5 9 13 (word 2) (word 3)
  let state := mix state 2 6 10 14 (word 4) (word 5)
  let state := mix state 3 7 11 15 (word 6) (word 7)
  let state := mix state 0 5 10 15 (word 8) (word 9)
  let state := mix state 1 6 11 12 (word 10) (word 11)
  let state := mix state 2 7 8 13 (word 12) (word 13)
  mix state 3 4 9 14 (word 14) (word 15)

def permute (message : Array UInt32) : Array UInt32 :=
  (permutation.map fun i => message.getD i 0).toArray

/-- A number of rounds, with the message permuted between them. -/
def rounds : Nat → Array UInt32 → Array UInt32 → Array UInt32
  | 0, state, _ => state
  | n + 1, state, message => rounds n (round state message) (permute message)

/-- Compresses a block into the eight words that stand for everything up to it. -/
def compress (chaining : List UInt32) (message : Array UInt32) (counter : Nat) (length : Nat)
    (flags : UInt32) : List UInt32 :=
  let start := chaining ++ initialWords.take 4 ++
    [UInt32.ofNat counter, UInt32.ofNat (counter / twoTo 32), UInt32.ofNat length, flags]
  let final := rounds 7 start.toArray message
  (List.range 8).map fun i => final.getD i 0 ^^^ final.getD (i + 8) 0

/-- The sixteen message words of a block, least significant byte first. -/
def blockWords (block : List UInt8) : Array UInt32 :=
  let bytes := block.toArray
  ((List.range 16).map fun i =>
    (bytes.getD (4 * i) 0).toUInt32 ||| (bytes.getD (4 * i + 1) 0).toUInt32 <<< 8
      ||| (bytes.getD (4 * i + 2) 0).toUInt32 <<< 16
      ||| (bytes.getD (4 * i + 3) 0).toUInt32 <<< 24).toArray

/-- Compresses the blocks of a chunk; the last one carries the given flags as well. -/
def compressBlocks (counter : Nat) (lastFlags : UInt32) :
    Nat → UInt32 → List UInt32 → List UInt8 → List UInt32
  | 0, flags, chaining, block =>
    compress chaining (blockWords block) counter block.length (flags ||| chunkEnd ||| lastFlags)
  | more + 1, flags, chaining, bytes =>
    if bytes.length ≤ blockSize then
      compress chaining (blockWords bytes) counter bytes.length
        (flags ||| chunkEnd ||| lastFlags)
    else
      compressBlocks counter lastFlags more 0
        (compress chaining (blockWords (bytes.take blockSize)) counter blockSize flags)
        (bytes.drop blockSize)

def chunkWords (counter : Nat) (lastFlags : UInt32) (bytes : List UInt8) : List UInt32 :=
  compressBlocks counter lastFlags (chunkSize / blockSize) chunkStart initialWords bytes

/-- The words that stand for two halves of a tree. -/
def parentWords (lastFlags : UInt32) (left right : List UInt32) : List UInt32 :=
  compress initialWords (left ++ right).toArray 0 blockSize (parentNode ||| lastFlags)

/-- The words of the tree over the bytes; `levels` bounds its height. -/
def treeWords : Nat → Nat → UInt32 → List UInt8 → List UInt32
  | 0, counter, lastFlags, bytes => chunkWords counter lastFlags bytes
  | levels + 1, counter, lastFlags, bytes =>
    if bytes.length ≤ chunkSize then chunkWords counter lastFlags bytes
    else
      let leftChunks := twoTo ((bytes.length - 1) / chunkSize).log2
      let left := treeWords levels counter 0 (bytes.take (leftChunks * chunkSize))
      let right := treeWords levels (counter + leftChunks) 0 (bytes.drop (leftChunks * chunkSize))
      parentWords lastFlags left right

/-- The four bytes of a word, least significant first. -/
def wordBytes (word : UInt32) : List UInt8 :=
  [word.toUInt8, (word >>> 8).toUInt8, (word >>> 16).toUInt8, (word >>> 24).toUInt8]

def digest (bytes : List UInt8) : List UInt8 :=
  (treeWords (bytes.length.log2 + 1) 0 rootNode bytes).flatMap wordBytes

/-- Two lower case hexadecimal digits of a byte. -/
def byteHex (byte : UInt8) : List Char :=
  [Nat.digitChar (byte.toNat / 16), Nat.digitChar (byte.toNat % 16)]

/-- The digest of text in lower case hexadecimal digits. -/
def hexDigest (text : String) : String :=
  String.ofList ((digest (Text.encodeUtf8 text)).flatMap byteHex)

end JobGraph.Blake3
