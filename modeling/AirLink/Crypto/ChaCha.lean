/-
  The ChaCha family: a permutation of sixteen words, run for a number of
  double rounds and added to its input.

  Ten double rounds with a key, a block count and a nonce give the key
  stream that packets are encrypted with (`keystream`); four double rounds
  with a seed, a block count and a stream number give the random words that
  the channels are drawn from (`randomBlock`).
-/
import AirLink.Bytes

namespace AirLink.ChaCha

/-- The sixteen words the permutation works on. -/
abbrev Words := Vector UInt32 16

/-- Rotation to the left. -/
def rotl (x : UInt32) (n : UInt32) : UInt32 := (x <<< n) ||| (x >>> (32 - n))

/-- Mixes the four words at the given places. -/
def quarterRound (a b c d : Fin 16) (w : Words) : Words :=
  let w := w.set a (w[a] + w[b])
  let w := w.set d (rotl (w[d] ^^^ w[a]) 16)
  let w := w.set c (w[c] + w[d])
  let w := w.set b (rotl (w[b] ^^^ w[c]) 12)
  let w := w.set a (w[a] + w[b])
  let w := w.set d (rotl (w[d] ^^^ w[a]) 8)
  let w := w.set c (w[c] + w[d])
  w.set b (rotl (w[b] ^^^ w[c]) 7)

/-- Mixes the columns, then the diagonals. -/
def doubleRound (w : Words) : Words :=
  let w := quarterRound 0 4 8 12 w
  let w := quarterRound 1 5 9 13 w
  let w := quarterRound 2 6 10 14 w
  let w := quarterRound 3 7 11 15 w
  let w := quarterRound 0 5 10 15 w
  let w := quarterRound 1 6 11 12 w
  let w := quarterRound 2 7 8 13 w
  quarterRound 3 4 9 14 w

/-- The given number of double rounds. -/
def doubleRounds : Nat → Words → Words
  | 0, w => w
  | n + 1, w => doubleRounds n (doubleRound w)

/-- The output block for an input. -/
def block (rounds : Nat) (input : Words) : Words :=
  Vector.zipWith (· + ·) (doubleRounds rounds input) input

/-- The word at a place of a byte string, least significant byte first. -/
def littleWord (bs : Bytes) (i : Nat) : UInt32 :=
  let byte (k : Nat) := (bs.getD (4 * i + k) 0).toUInt32
  byte 0 ||| (byte 1 <<< 8) ||| (byte 2 <<< 16) ||| (byte 3 <<< 24)

/-- A word, least significant byte first. -/
def littleBytes (w : UInt32) : Bytes :=
  [w.toUInt8, (w >>> 8).toUInt8, (w >>> 16).toUInt8, (w >>> 24).toUInt8]

/-- The constant words, the eight words of a key and four more. -/
def input (key : Block 32) (a b c d : UInt32) : Words :=
  let k := littleWord key.toList
  #v[0x61707865, 0x3320646e, 0x79622d32, 0x6b206574,
    k 0, k 1, k 2, k 3, k 4, k 5, k 6, k 7, a, b, c, d]

/-! ## The key stream -/

/-- A block of the key stream. -/
def keyBlock (key : Block 32) (nonce : Block 12) (count : Nat) : Bytes :=
  let n := littleWord nonce.toList
  (block 10 (input key (UInt32.ofNat count) (n 0) (n 1) (n 2))).toList.flatMap littleBytes

/-- The first `n` bytes of the key stream. -/
def keystream (key : Block 32) (nonce : Block 12) (n : Nat) : Bytes :=
  ((List.range ((n + 63) / 64)).flatMap (keyBlock key nonce)).take n

/-- Encrypts, and decrypts what was encrypted. -/
def apply (key : Block 32) (nonce : Block 12) (data : Bytes) : Bytes :=
  data.xor (keystream key nonce data.length)

theorem length_keyBlock (key : Block 32) (nonce : Block 12) (count : Nat) :
    (keyBlock key nonce count).length = 64 := by
  have h (w : UInt32) : (littleBytes w).length = 4 := rfl
  simp [keyBlock, List.length_flatMap, h, List.map_const']

@[simp] theorem length_keystream (key : Block 32) (nonce : Block 12) (n : Nat) :
    (keystream key nonce n).length = n := by
  simp only [keystream, List.length_take, List.length_flatMap, length_keyBlock, List.map_const',
    List.length_range, List.sum_replicate_nat]
  omega

@[simp] theorem length_apply (key : Block 32) (nonce : Block 12) (data : Bytes) :
    (apply key nonce data).length = data.length := by
  simp [apply, Bytes.xor]

/-- Applying the same key stream again gives the data back. -/
theorem apply_apply (key : Block 32) (nonce : Block 12) (data : Bytes) :
    apply key nonce (apply key nonce data) = data := by
  simp only [apply, Bytes.xor, List.length_zipWith, length_keystream, Nat.min_self]
  refine List.ext_getElem (by simp) fun i _ _ => ?_
  rw [List.getElem_zipWith, List.getElem_zipWith, UInt8.xor_assoc, UInt8.xor_self, UInt8.xor_zero]

/-! ## Random words -/

/-- A block of random words of a stream. -/
def randomBlock (seed : Block 32) (stream : UInt64) (count : Nat) : Words :=
  let n := UInt64.ofNat count
  block 4 (input seed n.toUInt32 (n >>> 32).toUInt32 stream.toUInt32 (stream >>> 32).toUInt32)

/-- The `i`-th random word of a stream. -/
def randomWord (seed : Block 32) (stream : UInt64) (i : Nat) : UInt32 :=
  (randomBlock seed stream (i / 16)).toList.getD (i % 16) 0

end AirLink.ChaCha
