/-
  Agreeing on the keys of a session with a partner.

  There are two kinds of credentials: devices that know each other's address
  and share a secret key, and devices that know their own key pair only and
  take the partner's public key from its identity.  Either way the work is a
  plan of small steps (`Credentials.plan`), one of which `Session.calculate`
  takes at a time, so that no call takes long.
-/
import AirLink.Crypto.Curve
import AirLink.Session.Material

namespace AirLink

/-- What a device brings along. -/
inductive Credentials where
  /-- the address of the partner and the secret key shared with it -/
  | addresses (partner : Block 8) (secretKey : Block 32)
  /-- the secret number of a key pair -/
  | keyPair (secret : Curve.Secret)

/-- A step of the calculation. -/
inductive Step where
  /-- read the partner's public key from its identity -/
  | partnerKey
  | linkingToken
  | secret
  | keys
  | codec
  | sessionToken
deriving DecidableEq, Repr

/-- The steps to take, in order. -/
def Credentials.plan : Credentials → List Step
  | addresses .. => [.linkingToken, .secret, .keys, .codec, .sessionToken]
  | keyPair _ => [.partnerKey, .secret, .keys, .codec, .linkingToken, .sessionToken]

/-- How far the calculation has got. -/
inductive Calculation where
  /-- there is no partner to calculate for -/
  | idle
  /-- the next step, and those after it -/
  | underway (next : Step) (rest : List Step)
  | done
deriving DecidableEq, Repr

/-- The name of the progress in reports. -/
def Calculation.name : Calculation → String
  | idle => "AwaitingPartner"
  | underway .partnerKey _ => "DecompressingPartnerKey"
  | underway .linkingToken _ => "CalculatingLinkingToken"
  | underway .secret _ => "CalculatingSecret"
  | underway .keys _ => "CalculatingExpandedKey"
  | underway .codec _ => "CalculatingAddressing"
  | underway .sessionToken _ => "CalculatingSessionToken"
  | done => "Cached"

/-- How many steps are left. -/
def Calculation.left : Calculation → Nat
  | underway _ rest => rest.length + 1
  | idle | done => 0

/-- The calculation with the given steps left. -/
def Calculation.ofSteps : List Step → Calculation
  | [] => .done
  | s :: rest => .underway s rest

/-- A session with a partner, or the wait for one. -/
structure Session where
  material : Material
  credentials : Credentials
  /-- the partner's public key, once it is read -/
  partnerKey : Option Curve.Point
  calculation : Calculation

namespace Session

/-- A device with an address, a partner and a secret key. -/
def ofAddresses (role : Role) (own partner : Block 8) (secretKey : Block 32) : Session :=
  ⟨.fresh role own.toList, .addresses partner secretKey, none, .idle⟩

/-- A device with a key pair, whose identity is its public key. -/
def ofSecretKey (role : Role) (secret : Bytes) : Except SessionRefusal Session :=
  match Curve.Secret.ofBytes? secret with
  | some s => .ok ⟨.fresh role s.publicKey.compress, .keyPair s, none, .idle⟩
  | none => .error .secretKey

def role (s : Session) : Role := s.material.role

/-- What this end sends as its identity. -/
def identity (s : Session) : Bytes := s.material.identity

def id (s : Session) : SessionId := s.material.session

def isReady (s : Session) : Bool := s.calculation = .done

/-- Changes the session id; the calculation is not started over. -/
def setId (s : Session) (id : SessionId) : Session :=
  { s with material := s.material.setSession id }

def isCachedFor (s : Session) (partner : Bytes) : Bool := s.material.isCachedFor partner

/-- The codec, once the session is ready. -/
def codec (s : Session) : Option Codec := if s.isReady then s.material.codec else none

/-- The seed of the channels, once the session is ready. -/
def hopSeed (s : Session) : Option (Block 32) := if s.isReady then s.material.hopSeed else none

def authResponse (s : Session) (challenge : UInt32) (direction : UInt8) :
    Except SessionRefusal UInt32 :=
  s.material.authResponse challenge direction

/-- Forgets the partner, but keeps what is derived for a reconnection. -/
def reset (s : Session) : Session :=
  { s with material := s.material.reset, partnerKey := none, calculation := .idle }

/-- Forgets everything. -/
def clear (s : Session) : Session :=
  { s with material := s.material.clear, partnerKey := none, calculation := .idle }

/-! ## The partner -/

/-- Refuses what cannot be the identity of a partner. -/
def Credentials.checkPartner : Credentials → Bytes → Except SessionRefusal Unit
  | .addresses partner _, identity =>
    if identity = partner.toList then .ok () else .error .wrongAddress
  | .keyPair _, identity =>
    if Curve.isCompressed identity then .ok () else .error .notCompressed

/-- Sets the partner and starts the calculation, unless everything is derived
    for it already. -/
def setPartner (s : Session) (partner : Bytes) : Except SessionRefusal Session := do
  Credentials.checkPartner s.credentials partner
  let (cached, material) ← s.material.setPartner partner
  if cached then return { s with material, calculation := .done }
  else return { s with
    material
    partnerKey := none
    calculation := .ofSteps s.credentials.plan }

/-! ## The steps -/

/-- The linking token of two addresses. -/
def addressToken (role : Role) (own partner : Bytes) : Block 16 :=
  let ends := match role with
    | .server => own ++ partner
    | .client => partner ++ own
  (Sha256.digest (Bytes.ofText "address match" ++ ends)).take 16

/-- Works out the linking token. -/
def findLinkingToken (s : Session) : Except SessionRefusal Session :=
  match s.credentials with
  | .addresses partner _ =>
    .ok { s with
      material := s.material.setLinkingToken
        (addressToken s.role s.identity partner.toList) }
  | .keyPair _ => return { s with material := ← s.material.deriveLinkingToken }

/-- Works out the secret that both ends share. -/
def findSecret (s : Session) : Except SessionRefusal Session :=
  match s.credentials with
  | .addresses _ secretKey => do
    let token ← s.material.linkingToken?
    let secret := (Sha256.digest (secretKey.toList ++ token.toList)).toList
    return { s with material := ← s.material.setSecret secret }
  | .keyPair secret =>
    match s.partnerKey with
    | some partner => return { s with
        material := ← s.material.setSecret (Curve.sharedSecret secret partner) }
    | none => .error .notDecompressed

/-- Reads the partner's public key. -/
def findPartnerKey (s : Session) : Except SessionRefusal Session := do
  match Curve.Point.decompress (← s.material.partner?) with
  | some p => return { s with partnerKey := some p }
  | none => .error .notOnCurve

/-- Takes a step. -/
def take (s : Session) : Step → Except SessionRefusal Session
  | .partnerKey => s.findPartnerKey
  | .linkingToken => s.findLinkingToken
  | .secret => s.findSecret
  | .keys => return { s with material := ← s.material.deriveKeys }
  | .codec => return { s with material := ← s.material.deriveCodec }
  | .sessionToken => return { s with material := ← s.material.deriveSessionToken }

/-- The refusal to calculate without a partner. -/
def Credentials.noPartner : Credentials → SessionRefusal
  | .addresses .. => .noPartnerAddress
  | .keyPair _ => .noPartnerKey

/-- Takes the next step, if there is one left. -/
def calculate (s : Session) : Except SessionRefusal Session :=
  match s.calculation with
  | .idle => .error (Credentials.noPartner s.credentials)
  | .underway next rest => return { ← s.take next with calculation := .ofSteps rest }
  | .done => .ok s

/-- Calculates up to `more + 1` times, until the session is ready or a step is
    refused.  Yields how often. -/
def calculateUpTo : (more : Nat) → Session → Except SessionRefusal Nat × Session
  | 0, s =>
    match s.calculate with
    | .error r => (.error r, s)
    | .ok s => (.ok 1, s)
  | more + 1, s =>
    match s.calculate with
    | .error r => (.error r, s)
    | .ok s =>
      if s.isReady then (.ok 1, s)
      else
        let (count, s) := calculateUpTo more s
        (count.map (· + 1), s)

/-- Calculates until the session is ready or a step is refused.  Yields how
    often. -/
def calculateAll (s : Session) : Except SessionRefusal Nat × Session :=
  calculateUpTo (s.calculation.left - 1) s

end Session
end AirLink
