/-
  Sealing packets: encryption of port and payload and a tag over everything
  but the id.

    nonce = id (2) | packet size (1) | token (2) | seconds (4) | direction (1) | 0 0,  xor iv
    tag   = the first 4 bytes of the keyed digest of  address | nonce | ciphertext

  The token counts milliseconds of link time, so a packet is bound to the
  millisecond it is sent in; the address depends on who sends it.  The
  receiver opens a packet with the codec of the other role
  (`Codec.decode`), next to a millisecond boundary also with the time on its
  other side (`Codec.decodeNear`).
-/
import AirLink.Role
import AirLink.Settings
import AirLink.Crypto.ChaCha
import AirLink.Packet.Frame
import AirLink.Session.KeySet

namespace AirLink

/-- What a packet says. -/
structure Packet where
  counter : UInt16
  port : UInt8
  payload : Bytes
deriving DecidableEq

/-- The keys one end seals and opens packets with. -/
structure Codec where
  cipherKey : Block 32
  cipherIv : Block 12
  macKey : Block 32
  /-- goes into the tags of the packets sent -/
  sendAddress : Block 8
  /-- goes into the tags of the packets received -/
  receiveAddress : Block 8
  idKey : UInt16
  role : Role
deriving DecidableEq

/-- Why bytes are not opened. -/
inductive DecodeRefusal where
  | size (r : SizeRefusal)
  | tagMismatch
deriving DecidableEq

def DecodeRefusal.message : DecodeRefusal → String
  | size r => r.message
  | tagMismatch => "packet tag mismatch"

instance : ToString DecodeRefusal := ⟨DecodeRefusal.message⟩

namespace Codec

/-- The codec for packets before there are keys: it tells broken packets, not
    forged ones. -/
def unlinked (role : Role) : Codec :=
  ⟨zeroBlock 32, zeroBlock 12, zeroBlock 32, zeroBlock 8, zeroBlock 8, 0, role⟩

/-- The codec on a set of keys. -/
def ofKeys (keys : KeySet) (send receive : Block 8) (role : Role) : Codec :=
  ⟨keys.cipherKey, keys.cipherIv, keys.macKey, send, receive, keys.idKey, role⟩

/-- The codec of the other end. -/
def partner (c : Codec) : Codec :=
  { c with
    sendAddress := c.receiveAddress
    receiveAddress := c.sendAddress
    role := c.role.partner }

/-- Milliseconds of link time, modulo `2 ^ 16`. -/
def token (t : LinkTime) : UInt16 := UInt16.ofNat (t.toMicros / tokenMicros)

/-- The mask of the counters at a time. -/
def mask (c : Codec) (t : LinkTime) : UInt16 := c.idKey ^^^ t.seconds.toUInt16

/-- The parts of a nonce, one after the other. -/
def nonceParts (id : UInt16) (size : Nat) (t : LinkTime) (direction : UInt8) : Bytes :=
  be16 id ++ UInt8.ofNat size :: be16 (token t) ++ be32 t.seconds ++ [direction, 0, 0]

def nonce (c : Codec) (id : UInt16) (size : Nat) (t : LinkTime) (direction : UInt8) : Block 12 :=
  Vector.zipWith (· ^^^ ·) (Bytes.block 12 (nonceParts id size t direction)) c.cipherIv

/-- What the tag of a packet is the digest of. -/
def tagInput (address : Block 8) (nonce : Block 12) (ciphertext : Bytes) : Bytes :=
  address.toList ++ nonce.toList ++ ciphertext

def tag (c : Codec) (address : Block 8) (nonce : Block 12) (ciphertext : Bytes) : Block 4 :=
  (Hmac.digest c.macKey.toList (tagInput address nonce ciphertext)).take 4

/-- Seals a packet whose first bit is on air at the given link time. -/
def encode (c : Codec) (p : Packet) (t : LinkTime) : Except SizeRefusal Frame :=
  if h : p.payload.length ≤ maxPayloadSize then
    let id := p.counter ^^^ c.mask t
    let nonce := c.nonce id (headerSize + p.payload.length) t c.role.sendDirection
    let ciphertext := ChaCha.apply c.cipherKey nonce (p.port :: p.payload)
    .ok ⟨c.tag c.sendAddress nonce ciphertext, id, ciphertext, by simp [ciphertext],
      by simp [ciphertext, h]⟩
  else .error (.payload p.payload.length)

/-- The nonce under which a received frame is opened. -/
def openNonce (c : Codec) (f : Frame) (t : LinkTime) : Block 12 :=
  c.nonce f.rollingId f.size t c.role.receiveDirection

/-- Whether a received frame carries the tag it should. -/
def verifies (c : Codec) (f : Frame) (t : LinkTime) : Bool :=
  f.tag = c.tag c.receiveAddress (c.openNonce f t) f.sealed

/-- What a received frame says, if its tag is right. -/
def contents (c : Codec) (f : Frame) (t : LinkTime) : Packet :=
  let plain := ChaCha.apply c.cipherKey (c.openNonce f t) f.sealed
  ⟨f.rollingId ^^^ c.mask t, plain.headD 0, plain.tail⟩

/-- Opens received bytes. -/
def decode (c : Codec) (data : Bytes) (t : LinkTime) : Except DecodeRefusal Packet :=
  match Frame.ofBytes data with
  | .error r => .error (.size r)
  | .ok f => if c.verifies f t then .ok (c.contents f t) else .error .tagMismatch

/-- The time on the other side of a millisecond boundary, if it is no further
    than the tolerance. -/
def neighbour? (t : LinkTime) (tolerance : Nat) : Option LinkTime :=
  let within := t.subSeconds.toNat % tokenMicros
  if within < tolerance then some (t.shift (-tolerance))
  else if tokenMicros - tolerance ≤ within then some (t.shift tolerance)
  else none

/-- Opens received bytes with the time of reception or, next to a millisecond
    boundary, with the time on its other side. -/
def decodeNear (c : Codec) (data : Bytes) (t : LinkTime) (tolerance : Nat) :
    Except DecodeRefusal Packet :=
  match c.decode data t with
  | .ok p => .ok p
  | .error r =>
    match neighbour? t tolerance with
    | some t' => c.decode data t'
    | none => .error r

end Codec
end AirLink
