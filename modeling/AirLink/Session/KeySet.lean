/-
  The keys of a session, expanded from the shared secret.  The session id is
  the salt, so that even a secret that never changes gives fresh keys to each
  session.
-/
import AirLink.Crypto.Hmac
import AirLink.Packet.Assembly

namespace AirLink

/-- The keys of a session. -/
structure KeySet where
  cipherKey : Block 32
  cipherIv : Block 12
  macKey : Block 32
  addressingSeed : Block 16
  /-- masks the packet counter on air -/
  idKey : UInt16
  hopSeed : Block 32
deriving DecidableEq

namespace KeySet

/-- Bytes that a key set is cut from. -/
def expandedSize : Nat := 126

/-- The purpose that the expansion is bound to. -/
def purpose : Bytes := Bytes.ofText "link expanded key"

/-- Cuts expanded bytes into keys, in the order of the fields. -/
def ofBytes (bs : Bytes) : KeySet where
  cipherKey := Bytes.block 32 bs
  cipherIv := Bytes.block 12 (bs.drop 32)
  macKey := Bytes.block 32 (bs.drop 44)
  addressingSeed := Bytes.block 16 (bs.drop 76)
  idKey := word16 (bs.getD 92 0) (bs.getD 93 0)
  hopSeed := Bytes.block 32 (bs.drop 94)

/-- The keys of a session with the given secret. -/
def derive (secret : Bytes) (session : SessionId) : KeySet :=
  ofBytes (Hmac.expand (Hmac.extract (be16 session) secret).toList purpose expandedSize)

end KeySet
end AirLink
