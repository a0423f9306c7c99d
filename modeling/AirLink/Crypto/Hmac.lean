/-
  Keyed digests on SHA-256 (HMAC) and the expansion of a secret to keys of
  any length (HKDF: `extract`, then `expand`).
-/
import AirLink.Crypto.Sha256

namespace AirLink.Hmac

/-- A key as one block of 64 bytes; a longer one is hashed first. -/
def keyBlock (key : Bytes) : Block 64 :=
  if 64 < key.length then Bytes.block 64 (Sha256.digest key).toList else key.block 64

/-- The keyed digest of a message. -/
def digest (key message : Bytes) : Block 32 :=
  let block := (keyBlock key).toList
  let inner := Sha256.digest (block.map (· ^^^ 0x36) ++ message)
  Sha256.digest (block.map (· ^^^ 0x5c) ++ inner.toList)

/-- A key drawn from a secret and a salt. -/
def extract (salt secret : Bytes) : Block 32 := digest salt secret

/-- The `n`-th to last block of an expansion, each chained to the one before
    it; `n` blocks in all, the next of which has number `i`. -/
def expandBlocks (key info : Bytes) : (n i : Nat) → (previous : Bytes) → Bytes
  | 0, _, _ => []
  | n + 1, i, previous =>
    let block := (digest key (previous ++ info ++ [UInt8.ofNat i])).toList
    block ++ expandBlocks key info n (i + 1) block

/-- `n` bytes expanded from a key, bound to a purpose. -/
def expand (key info : Bytes) (n : Nat) : Bytes :=
  (expandBlocks key info ((n + 31) / 32) 1 []).take n

end AirLink.Hmac
