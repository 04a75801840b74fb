import BatchFlow.Json.Basic

/-!
# Digests of byte sequences

The digest is 256 bits of BLAKE3.  The input is cut into chunks of 1024 bytes,
each chunk into blocks of 64 bytes that are compressed one after another, and
the chunks are the leaves of a binary tree whose left subtrees are complete.
The last compression, at the root of the tree, yields the digest.
-/

namespace BatchFlow

/-- A 256-bit digest, as bytes. -/
structure Digest where
  bytes : List UInt8
deriving DecidableEq, Inhabited

namespace Digest

/-- The two hexadecimal digits of a byte. -/
def hexByte (byte : UInt8) : List Char :=
  [Nat.digitChar (byte.toNat / 16), Nat.digitChar (byte.toNat % 16)]

/-- The digest in hexadecimal digits. -/
def hex (digest : Digest) : String :=
  String.ofList (digest.bytes.flatMap hexByte)

/-- The first twelve hexadecimal digits, enough to tell plans apart. -/
def short (digest : Digest) : String :=
  String.ofList (digest.hex.toList.take 12)

/-- The JSON form of a digest, a list of bytes. -/
def toJson (digest : Digest) : Json :=
  .array (digest.bytes.map fun byte => .integer byte.toNat)

/-- Eight words that one compression hands to the next. -/
abbrev ChainingValue :=
  Vector UInt32 8

/-- The sixteen words of a block. -/
abbrev Block :=
  Vector UInt32 16

/-- The chaining value that every chunk starts from. -/
def initialValue : ChainingValue :=
  #v[0x6a09e667, 0xbb67ae85, 0x3c6ef372, 0xa54ff53a,
    0x510e527f, 0x9b05688c, 0x1f83d9ab, 0x5be0cd19]

/-- The order of the block's words in the next round. -/
def permute (block : Block) : Block :=
  #v[block[2], block[6], block[3], block[10], block[7], block[0], block[4], block[13],
    block[1], block[11], block[12], block[5], block[9], block[14], block[15], block[8]]

/-- A word rotated to the right. -/
def rotate (word amount : UInt32) : UInt32 :=
  (word >>> amount) ||| (word <<< (32 - amount))

/-- Mix two words into four words of the state. -/
def mix (state : Block) (a b c d : Fin 16) (x y : UInt32) : Block :=
  let state := state.set a (state[a] + state[b] + x)
  let state := state.set d (rotate (state[d] ^^^ state[a]) 16)
  let state := state.set c (state[c] + state[d])
  let state := state.set b (rotate (state[b] ^^^ state[c]) 12)
  let state := state.set a (state[a] + state[b] + y)
  let state := state.set d (rotate (state[d] ^^^ state[a]) 8)
  let state := state.set c (state[c] + state[d])
  state.set b (rotate (state[b] ^^^ state[c]) 7)

/-- One round: the columns of the state, then its diagonals. -/
def round (state block : Block) : Block :=
  let state := mix state 0 4 8 12 block[0] block[1]
  let state := mix state 1 5 9 13 block[2] block[3]
  let state := mix state 2 6 10 14 block[4] block[5]
  let state := mix state 3 7 11 15 block[6] block[7]
  let state := mix state 0 5 10 15 block[8] block[9]
  let state := mix state 1 6 11 12 block[10] block[11]
  let state := mix state 2 7 8 13 block[12] block[13]
  mix state 3 4 9 14 block[14] block[15]

/-- A number of rounds, the block's words permuted after each. -/
def rounds : Nat → Block → Block → Block
  | 0, state, _ => state
  | count + 1, state, block => rounds count (round state block) (permute block)

/-- A compression that has not been carried out. -/
structure Compression where
  value : ChainingValue
  block : Block
  counter : UInt64
  length : UInt32
  flags : UInt32

/-- Set on the first block of a chunk. -/
def chunkStart : UInt32 := 1

/-- Set on the last block of a chunk. -/
def chunkEnd : UInt32 := 2

/-- Set on an inner node of the tree. -/
def parent : UInt32 := 4

/-- Set on the last compression. -/
def root : UInt32 := 8

namespace Compression

/-- The eight words of a compression with further flags. -/
def run (compression : Compression) (extra : UInt32) : ChainingValue :=
  let value := compression.value
  let state : Block :=
    #v[value[0], value[1], value[2], value[3], value[4], value[5], value[6], value[7],
      initialValue[0], initialValue[1], initialValue[2], initialValue[3],
      compression.counter.toUInt32, (compression.counter >>> 32).toUInt32,
      compression.length, compression.flags ||| extra]
  let mixed := rounds 7 state compression.block
  #v[mixed[0] ^^^ mixed[8], mixed[1] ^^^ mixed[9], mixed[2] ^^^ mixed[10],
    mixed[3] ^^^ mixed[11], mixed[4] ^^^ mixed[12], mixed[5] ^^^ mixed[13],
    mixed[6] ^^^ mixed[14], mixed[7] ^^^ mixed[15]]

/-- The inner node over two subtrees. -/
def join (left right : Compression) : Compression where
  value := initialValue
  block := (left.run 0 ++ right.run 0).cast (by decide)
  counter := 0
  length := 64
  flags := parent

end Compression

/-- A little-endian word; missing bytes are zero. -/
def wordOfBytes (bytes : List UInt8) : UInt32 :=
  bytes.foldr (fun byte word => (word <<< 8) ||| byte.toUInt32) 0

/-- The words of a block of at most 64 bytes. -/
def blockOfBytes (bytes : List UInt8) : Block :=
  Vector.ofFn fun index => wordOfBytes ((bytes.drop (4 * index.val)).take 4)

/-- Compress the blocks of a chunk up to the last one. -/
def compressBlocks (counter : UInt64) (flags : UInt32) (value : ChainingValue)
    (bytes : List UInt8) : Compression :=
  if bytes.length ≤ 64 then
    ⟨value, blockOfBytes bytes, counter, UInt32.ofNat bytes.length, flags ||| chunkEnd⟩
  else
    let full : Compression := ⟨value, blockOfBytes (bytes.take 64), counter, 64, flags⟩
    compressBlocks counter 0 (full.run 0) (bytes.drop 64)
termination_by bytes.length

/-- The chunks of the input, numbered from `counter`. -/
def chunks (counter : UInt64) (bytes : List UInt8) : List Compression :=
  if _ : bytes.drop 1024 = [] then [compressBlocks counter chunkStart initialValue bytes]
  else
    compressBlocks counter chunkStart initialValue (bytes.take 1024)
      :: chunks (counter + 1) (bytes.drop 1024)
termination_by bytes.length
decreasing_by
  have longer := mt List.drop_eq_nil_iff.mpr ‹¬bytes.drop 1024 = []›
  simp only [List.length_drop]
  omega

/-- The number of leaves of the left subtree over `count` leaves: the greatest
power of two below `count`. -/
def leftLeaves (count : Nat) : Nat :=
  Nat.pow 2 (count - 1).log2

theorem leftLeaves_lt {count : Nat} (several : 2 ≤ count) : leftLeaves count < count := by
  have nonzero : count - 1 ≠ 0 := by omega
  have := Nat.log2_self_le nonzero
  rw [leftLeaves, Nat.pow_eq]
  omega

/-- The tree over a nonempty list of leaves. -/
def tree (first : Compression) (others : List Compression) : Compression :=
  if _ : others = [] then first
  else
    let left := leftLeaves (others.length + 1)
    match rightLeaves : others.drop (left - 1) with
    | [] => first
    | middle :: rest =>
        Compression.join (tree first (others.take (left - 1))) (tree middle rest)
termination_by others.length
decreasing_by
  · have length := List.length_pos_iff.mpr ‹¬others = []›
    have : leftLeaves (others.length + 1) < others.length + 1 := leftLeaves_lt (by omega)
    simp only [List.length_take]
    omega
  · have dropped := congrArg List.length rightLeaves
    simp only [List.length_drop, List.length_cons] at dropped
    omega

/-- The bytes of a word, least significant first. -/
def bytesOfWord (word : UInt32) : List UInt8 :=
  [word.toUInt8, (word >>> 8).toUInt8, (word >>> 16).toUInt8, (word >>> 24).toUInt8]

/-- The digest of a byte sequence. -/
def ofBytes (bytes : List UInt8) : Digest :=
  match chunks 0 bytes with
  | [] => ⟨[]⟩
  | first :: others => ⟨((tree first others).run root).toList.flatMap bytesOfWord⟩

/-- The digest of the UTF-8 form of a text. -/
def ofText (text : String) : Digest :=
  ofBytes text.toUTF8.toList

/-- The digest of the compact text of a JSON value. -/
def ofJson (value : Json) : Digest :=
  ofText value.text

end Digest

end BatchFlow
