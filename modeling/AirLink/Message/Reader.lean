/-
  Reading messages.  The family is known from the header byte; bytes after
  the last field of a handshake or upkeep message are not looked at.
-/
import AirLink.Message.Basic

namespace AirLink

def LinkTime.read : Reader LinkTime := fun bs => do
  let (seconds, bs) ← read32 bs
  let (subSeconds, bs) ← read32 bs
  if microsPerSecond ≤ subSeconds.toNat then .error (.subSeconds subSeconds)
  else .ok (⟨seconds, subSeconds⟩, bs)

def Offset.read : Reader Offset := fun bs => do
  let (seconds, bs) ← read32 bs
  let (subSeconds, bs) ← read32 bs
  .ok (⟨seconds.toInt32, subSeconds.toInt32⟩, bs)

/-- A flag is set by anything but zero. -/
def readFlag : Reader Bool := fun bs => do
  let (b, bs) ← read8 bs
  .ok (b != 0, bs)

def PairingMessage.read (bs : Bytes) : Except ReadRefusal PairingMessage := do
  let (header, bs) ← read8 bs
  let kind ← match header with
    | 0x10 => .ok PairingMessage.sessionAvailable
    | 0x11 => .ok PairingMessage.startRequest
    | _ => .error (.unknownKind .pairing header)
  let (session, bs) ← read16 bs
  .ok (kind session (← Fragment.read bs))

namespace HandshakeMessage

/-- The fields of a clock request. -/
def readSyncRequest (phase : Phase) (bs : Bytes) : Except ReadRefusal HandshakeMessage := do
  let (sequence, bs) ← read8 bs
  let (estimate, _) ← LinkTime.read bs
  .ok (.syncRequest phase sequence estimate)

/-- The fields of a reply to a clock request. -/
def readSyncReply (phase : Phase) (bs : Bytes) : Except ReadRefusal HandshakeMessage := do
  let (sequence, bs) ← read8 bs
  let (error, bs) ← Offset.read bs
  let (accepted, _) ← readFlag bs
  .ok (.syncReply phase sequence error accepted)

def read (bs : Bytes) : Except ReadRefusal HandshakeMessage := do
  let (header, bs) ← read8 bs
  match header with
  | 0x20 => return .switchToLinking (← read32 bs).1
  | 0x21 => return .switchToLinkingAck
  | 0x22 => return .authRequest (← read32 bs).1
  | 0x23 =>
    let (response, bs) ← read32 bs
    return .authReply response (← read32 bs).1
  | 0x24 => return .authAccepted (← read32 bs).1
  | 0x25 => readSyncRequest .broad bs
  | 0x26 => readSyncReply .broad bs
  | 0x27 => readSyncRequest .fine bs
  | 0x28 => readSyncReply .fine bs
  | 0x29 => return .switchToLinked (← read32 bs).1
  | 0x2A => return .switchToLinkedAck
  | _ => .error (.unknownKind .handshake header)

end HandshakeMessage

def UpkeepMessage.read (bs : Bytes) : Except ReadRefusal UpkeepMessage := do
  let (header, bs) ← read8 bs
  match header with
  | 0x30 =>
    let (rssi, bs) ← read8 bs
    let (receiveCounter, bs) ← read16 bs
    let (requestReply, _) ← readFlag bs
    return .report ⟨rssi.toInt8, receiveCounter, requestReply⟩
  | 0x31 => return .tuneRequest (← LinkTime.read bs).1
  | 0x32 => return .tuneReply (← read32 bs).1.toInt32
  | _ => .error (.unknownKind .upkeep header)

/-- Reads a message of whichever family its header belongs to. -/
def Message.read (bs : Bytes) : Except ReadRefusal Message :=
  match bs with
  | [] => .error .empty
  | header :: _ =>
    match Family.ofHeader header with
    | some .pairing => (PairingMessage.read bs).map .pairing
    | some .handshake => (HandshakeMessage.read bs).map .handshake
    | some .upkeep => (UpkeepMessage.read bs).map .upkeep
    | none => .error (.unknownFamily header)

end AirLink
