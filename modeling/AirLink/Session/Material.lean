/-
  The derived material of a session and the steps it is derived in.

  Everything is derived for one session id and one partner.  A change of
  either drops it (`Material.setSession`, `Material.setPartner`); forgetting
  the partner does not (`Material.reset`), so that a reconnection finds it
  again under the session token (`Material.isCachedFor`).
-/
import AirLink.Session.Codec

namespace AirLink

/-- Why an operation on a session is refused. -/
inductive SessionRefusal where
  | noPartner
  | ownIdentity
  | secretSize (size : Nat)
  | noSecret
  | noKeys
  | noLinkingToken
  | noPartnerAddress
  | noPartnerKey
  | wrongAddress
  | notCompressed
  | notOnCurve
  | notDecompressed
  | secretKey
deriving DecidableEq, Repr

def SessionRefusal.message : SessionRefusal → String
  | noPartner => "no partner identity"
  | ownIdentity => "partner identity collides with our own"
  | secretSize n => s!"shared secret has {n} bytes, expected 32"
  | noSecret => "no shared secret to expand"
  | noKeys => "key material not derived yet"
  | noLinkingToken => "no linking token"
  | noPartnerAddress => "no partner address"
  | noPartnerKey => "no partner public key"
  | wrongAddress => "partner address does not match the expected address"
  | notCompressed => "partner identity is not a compressed public key"
  | notOnCurve => "partner public key is not a valid curve point"
  | notDecompressed => "partner public key not decompressed"
  | secretKey => "invalid P-256 secret key"

instance : ToString SessionRefusal := ⟨SessionRefusal.message⟩

/-- The material of a session, as far as it is derived. -/
structure Material where
  role : Role
  /-- what this end sends as its identity -/
  identity : Bytes
  session : SessionId
  partner : Option Bytes
  secret : Option (Block 32)
  keys : Option KeySet
  codec : Option Codec
  linkingToken : Option (Block 16)
  sessionToken : Option (Block 8)
deriving DecidableEq

namespace Material

/-- No partner, nothing derived. -/
def fresh (role : Role) (identity : Bytes) : Material :=
  ⟨role, identity, 0, none, none, none, none, none, none⟩

/-- Drops everything derived. -/
def invalidate (m : Material) : Material :=
  { m with secret := none, keys := none, codec := none, linkingToken := none, sessionToken := none }

/-- Changes the session id, which drops everything derived for another. -/
def setSession (m : Material) (session : SessionId) : Material :=
  if session = m.session then m else { m.invalidate with session }

/-- The token of a partner under the current session id. -/
def sessionTokenFor (m : Material) (partner : Bytes) : Block 8 :=
  (Sha256.digest (Bytes.ofText "session token" ++ be16 m.session ++ partner ++ m.identity)).take 8

/-- Whether everything is derived for a partner and the current session
    id. -/
def isCachedFor (m : Material) (partner : Bytes) : Bool :=
  match m.sessionToken with
  | some token => m.codec.isSome && token == m.sessionTokenFor partner
  | none => false

/-- Sets the partner.  Yields whether everything is derived for it
    already. -/
def setPartner (m : Material) (partner : Bytes) : Except SessionRefusal (Bool × Material) :=
  if partner = m.identity then .error .ownIdentity
  else
    let cached := m.isCachedFor partner
    .ok (cached, { (if cached then m else m.invalidate) with partner := some partner })

/-- Forgets the partner, but not what is derived for it. -/
def reset (m : Material) : Material := { m with partner := none, secret := none }

/-- Forgets everything. -/
def clear (m : Material) : Material := { m.invalidate with partner := none }

/-! ## Derivation -/

def partner? (m : Material) : Except SessionRefusal Bytes :=
  match m.partner with
  | some p => .ok p
  | none => .error .noPartner

def keys? (m : Material) : Except SessionRefusal KeySet :=
  match m.keys with
  | some k => .ok k
  | none => .error .noKeys

def linkingToken? (m : Material) : Except SessionRefusal (Block 16) :=
  match m.linkingToken with
  | some t => .ok t
  | none => .error .noLinkingToken

/-- Takes the secret that both ends share. -/
def setSecret (m : Material) (secret : Bytes) : Except SessionRefusal Material :=
  if secret.length = 32 then .ok { m with secret := some (secret.block 32) }
  else .error (.secretSize secret.length)

/-- Expands the secret, which is used up. -/
def deriveKeys (m : Material) : Except SessionRefusal Material :=
  match m.secret with
  | some secret =>
    .ok { m with secret := none, keys := some (KeySet.derive secret.toList m.session) }
  | none => .error .noSecret

/-- The address of the packets one end sends to another. -/
def address (keys : KeySet) (sender receiver : Bytes) : Block 8 :=
  (Hmac.digest keys.addressingSeed.toList (sender ++ receiver)).take 8

/-- Derives the two addresses, and the codec with them. -/
def deriveCodec (m : Material) : Except SessionRefusal Material := do
  let partner ← m.partner?
  let keys ← m.keys?
  return { m with
    codec := some (.ofKeys keys (address keys m.identity partner) (address keys partner m.identity)
      m.role) }

def setLinkingToken (m : Material) (token : Block 16) : Material :=
  { m with linkingToken := some token }

/-- Derives the linking token from the keys, where none is shared before. -/
def deriveLinkingToken (m : Material) : Except SessionRefusal Material := do
  let keys ← m.keys?
  let digest := Hmac.digest keys.macKey.toList (Bytes.ofText "linking token" ++ be16 m.session)
  return m.setLinkingToken (digest.take 16)

/-- Marks everything as derived for the partner. -/
def deriveSessionToken (m : Material) : Except SessionRefusal Material := do
  let partner ← m.partner?
  return { m with sessionToken := some (m.sessionTokenFor partner) }

def hopSeed (m : Material) : Option (Block 32) := m.keys.map KeySet.hopSeed

/-- What proves, in answer to a challenge, that an end has the keys. -/
def response (keys : KeySet) (token : Block 16) (challenge : UInt32) (direction : UInt8) : UInt32 :=
  let digest := Hmac.digest keys.macKey.toList
    (Bytes.ofText "auth" ++ token.toList ++ be32 challenge ++ [direction])
  word32 digest[0] digest[1] digest[2] digest[3]

def authResponse (m : Material) (challenge : UInt32) (direction : UInt8) :
    Except SessionRefusal UInt32 := do
  let keys ← m.keys?
  let token ← m.linkingToken?
  return response keys token challenge direction

end Material
end AirLink
