/-
  The messages that the two ends exchange on the link port.  They come in
  three families: pairing messages before there are any keys, the handshake
  under the session keys, and the upkeep of an established link.
-/
import AirLink.Clock.LinkTime
import AirLink.Packet.Fragment
import AirLink.Packet.Assembly
import AirLink.Sync.Phase

namespace AirLink

/-- Messages before any key exists. -/
inductive PairingMessage where
  /-- the server's advertisement, with a part of its identity -/
  | sessionAvailable (session : SessionId) (fragment : Fragment)
  /-- the client's answer, with a part of its own -/
  | startRequest (session : SessionId) (fragment : Fragment)
deriving DecidableEq

/-- Messages of the handshake, not bound to time. -/
inductive HandshakeMessage where
  | switchToLinking (timeRemaining : UInt32)
  | switchToLinkingAck
  | authRequest (challenge : UInt32)
  | authReply (response challenge : UInt32)
  | authAccepted (response : UInt32)
  /-- an estimate of the server's link time -/
  | syncRequest (phase : Phase) (sequence : UInt8) (estimate : LinkTime)
  /-- the server's judgement of an estimate -/
  | syncReply (phase : Phase) (sequence : UInt8) (error : Offset) (accepted : Bool)
  | switchToLinked (timeRemaining : UInt32)
  | switchToLinkedAck
deriving DecidableEq

/-- One end's view of the link. -/
structure Report where
  /-- signal strength of the last packet received -/
  rssi : Int8
  /-- the last packet counter accepted -/
  receiveCounter : UInt16
  requestReply : Bool
deriving DecidableEq

/-- Messages on an established link. -/
inductive UpkeepMessage where
  | report (report : Report)
  | tuneRequest (estimate : LinkTime)
  | tuneReply (errorMicros : Int32)
deriving DecidableEq

/-- A message on the link port. -/
inductive Message where
  | pairing (m : PairingMessage)
  | handshake (m : HandshakeMessage)
  | upkeep (m : UpkeepMessage)
deriving DecidableEq

namespace Message

def family : Message → Family
  | pairing _ => .pairing
  | handshake _ => .handshake
  | upkeep _ => .upkeep

end Message

/-- The family whose messages may start with a header. -/
def Family.ofHeader (h : UInt8) : Option Family :=
  if h >>> 4 = 1 then some .pairing
  else if h >>> 4 = 2 then some .handshake
  else if h >>> 4 = 3 then some .upkeep
  else none

/-! ## Headers -/

def PairingMessage.header : PairingMessage → UInt8
  | sessionAvailable .. => 0x10
  | startRequest .. => 0x11

def HandshakeMessage.header : HandshakeMessage → UInt8
  | switchToLinking _ => 0x20
  | switchToLinkingAck => 0x21
  | authRequest _ => 0x22
  | authReply .. => 0x23
  | authAccepted _ => 0x24
  | syncRequest .broad .. => 0x25
  | syncReply .broad .. => 0x26
  | syncRequest .fine .. => 0x27
  | syncReply .fine .. => 0x28
  | switchToLinked _ => 0x29
  | switchToLinkedAck => 0x2A

def UpkeepMessage.header : UpkeepMessage → UInt8
  | report _ => 0x30
  | tuneRequest _ => 0x31
  | tuneReply _ => 0x32

end AirLink
