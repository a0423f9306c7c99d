/-
  Identities on air.  An identity (an address or a compressed public key) can
  be longer than a payload, so it travels in numbered fragments.

  `Fragment.of` cuts an identity; a running number may be used as the index,
  it wraps around at the count.  `Fragment.write` and `Fragment.read` are the
  form on the wire: index and count share a byte, the bytes fill the rest.
-/
import AirLink.Packet.Reader

namespace AirLink

/-- Identity bytes in one fragment. -/
def fragmentCapacity : Nat := 21

/-- The most fragments of one identity. -/
def maxFragments : Nat := 15

/-- Fragments that an identity of the given length is cut into. -/
def fragmentCount (length : Nat) : Nat :=
  max 1 (min ((length + (fragmentCapacity - 1)) / fragmentCapacity) maxFragments)

/-- A part of an identity. -/
structure Fragment where
  index : UInt8
  count : UInt8
  bytes : Bytes
deriving DecidableEq

namespace Fragment

/-- What reading a fragment guarantees. -/
structure WellFormed (f : Fragment) : Prop where
  count_le : f.count.toNat ≤ maxFragments
  index_lt : f.index < f.count
  bytes_pos : 0 < f.bytes.length
  bytes_le : f.bytes.length ≤ fragmentCapacity

/-- The part of an identity with a number, which wraps around at the
    count. -/
def of (identity : Bytes) (number : Nat) : Fragment :=
  let count := fragmentCount identity.length
  let index := number % count
  ⟨UInt8.ofNat index, UInt8.ofNat count,
    (identity.drop (index * fragmentCapacity)).take fragmentCapacity⟩

def write (f : Fragment) : Bytes := ((f.index <<< 4) ||| f.count) :: f.bytes

/-- Reads a fragment, which is always the last field of its message. -/
def read (bs : Bytes) : Except ReadRefusal Fragment := do
  let (header, rest) ← read8 bs
  let index := header >>> 4
  let count := header &&& 0x0F
  if count ≤ index then .error (.fragmentNumber index count)
  else if rest.length = 0 ∨ fragmentCapacity < rest.length then
    .error (.fragmentSize rest.length)
  else .ok ⟨index, count, rest⟩

end Fragment
end AirLink
