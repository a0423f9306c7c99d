/-
  The written form of messages: a header byte, then the fields, numbers most
  significant byte first.
-/
import AirLink.Message.Basic

namespace AirLink

def LinkTime.write (t : LinkTime) : Bytes := be32 t.seconds ++ be32 t.subSeconds

def Offset.write (e : Offset) : Bytes := be32 e.seconds.toUInt32 ++ be32 e.subSeconds.toUInt32

/-- A flag is one for yes. -/
def writeFlag (b : Bool) : UInt8 := if b then 1 else 0

def PairingMessage.fields : PairingMessage → Bytes
  | sessionAvailable session fragment | startRequest session fragment =>
    be16 session ++ fragment.write

def HandshakeMessage.fields : HandshakeMessage → Bytes
  | switchToLinking remaining | switchToLinked remaining => be32 remaining
  | switchToLinkingAck | switchToLinkedAck => []
  | authRequest challenge => be32 challenge
  | authReply response challenge => be32 response ++ be32 challenge
  | authAccepted response => be32 response
  | syncRequest _ sequence estimate => sequence :: estimate.write
  | syncReply _ sequence error accepted => sequence :: error.write ++ [writeFlag accepted]

def UpkeepMessage.fields : UpkeepMessage → Bytes
  | report r => r.rssi.toUInt8 :: be16 r.receiveCounter ++ [writeFlag r.requestReply]
  | tuneRequest estimate => estimate.write
  | tuneReply error => be32 error.toUInt32

/-- The payload that carries a message. -/
def Message.write : Message → Bytes
  | pairing m => m.header :: m.fields
  | handshake m => m.header :: m.fields
  | upkeep m => m.header :: m.fields

end AirLink
