/-
  What an endpoint sees of its surroundings, and what it does to them.

  An operation happens at a `Moment`: the reading of the clock's source and
  the mood of the radio, which do not change while it runs.  What it does is a
  list of `Effect`s, in order.
-/
import AirLink.Bytes
import AirLink.Clock.LinkTime
import AirLink.Link.Stage

namespace AirLink

/-- What is known of a radio beforehand. -/
structure Radio where
  /-- microseconds until the first bit of a packet is on air -/
  timeToAir : (size : Nat) → Nat
  /-- microseconds that a packet is on air -/
  timeInAir : (size : Nat) → Nat
  /-- whether it can be started -/
  starts : Bool

/-- The surroundings during an operation. -/
structure Moment where
  /-- the reading of the clock's source -/
  raw : UInt32
  /-- whether the radio says that it can send -/
  available : Bool
  /-- whether the radio takes a packet -/
  accepts : Bool
deriving DecidableEq

/-- Something done to the surroundings. -/
inductive Effect where
  | clockStart
  | clockStop
  | radioStart
  | radioStop
  /-- the radio sends a packet -/
  | send (channel : UInt8) (packet : Bytes)
  /-- the radio did not take a packet -/
  | refused (channel : UInt8) (packet : Bytes)
  /-- the radio listens on a channel -/
  | listen (channel : UInt8)
  /-- the application is told of a new stage -/
  | stage (stage : Stage)
  /-- the application is given a packet, with the link time of its first
      bit -/
  | deliver (port : UInt8) (payload : Bytes) (time : LinkTime)
deriving DecidableEq

end AirLink
