/-
  The air between virtual radios.  A packet reaches every other radio that
  listens on its channel from the first bit to the last; what happens to
  packets that overlap is left out.

  The medium does not know the time: each operation is told when it happens.
-/
import AirLink.Bytes

namespace AirLink

/-- Microseconds from the decision of a virtual radio to send until the first
    bit. -/
def virtualTimeToAir : Nat := 20

/-- Microseconds that a packet of a virtual radio is on air; its size is a
    byte. -/
def virtualTimeInAir (size : UInt8) : Nat := 40 + 8 * size.toNat

/-- A packet on air. -/
structure Flight where
  sender : Nat
  channel : UInt8
  data : Bytes
  /-- the time of the first bit -/
  start : Nat
  /-- the time of the last bit -/
  finish : Nat
deriving DecidableEq

/-- A virtual radio. -/
structure VirtualRadio where
  listening : Option UInt8
  listeningSince : Nat
  transmitting : Bool
deriving DecidableEq

/-- The radios and the packets between them. -/
structure Medium where
  radios : List VirtualRadio
  flights : List Flight
  /-- whether every packet is swallowed -/
  blocked : Bool
deriving DecidableEq

/-- Something that a medium has for a radio. -/
inductive MediumEvent where
  /-- its transmission is over -/
  | sent (radio : Nat)
  /-- a packet, with the time of its first bit -/
  | delivered (radio : Nat) (data : Bytes) (arrival : Nat)
deriving DecidableEq

namespace VirtualRadio

def off : VirtualRadio := ⟨none, 0, false⟩

/-- Whether the radio has heard a packet from its first bit. -/
def hears (r : VirtualRadio) (f : Flight) : Bool :=
  r.listening = some f.channel && r.listeningSince ≤ f.start

end VirtualRadio

namespace Medium

/-- Radios that are off. -/
def ofRadios (n : Nat) : Medium := ⟨List.replicate n .off, [], false⟩

def radio (m : Medium) (i : Nat) : VirtualRadio := m.radios.getD i .off

/-- Changes a radio. -/
def modify (m : Medium) (i : Nat) (f : VirtualRadio → VirtualRadio) : Medium :=
  { m with radios := m.radios.modify i f }

def setBlocked (m : Medium) (blocked : Bool) : Medium := { m with blocked }

/-- Whether a radio can send. -/
def isFree (m : Medium) (i : Nat) : Bool := !(m.radio i).transmitting

/-- A radio sends a packet, unless it is sending one. -/
def send (m : Medium) (i now : Nat) (channel : UInt8) (data : Bytes) : Bool × Medium :=
  if m.isFree i then
    let start := now + virtualTimeToAir
    let flight : Flight :=
      ⟨i, channel, data, start, start + virtualTimeInAir (UInt8.ofNat data.length)⟩
    let m := m.modify i fun r => { r with transmitting := true, listening := none }
    (true, { m with flights := m.flights ++ [flight] })
  else (false, m)

/-- A radio listens on a channel, from now on if it was on another. -/
def listen (m : Medium) (i now : Nat) (channel : UInt8) : Medium :=
  m.modify i fun r =>
    if r.listening = some channel then r
    else { r with listening := some channel, listeningSince := now }

/-- A radio stops to listen. -/
def stop (m : Medium) (i : Nat) : Medium := m.modify i fun r => { r with listening := none }

/-- When the next packet on air is over. -/
def nextEvent (m : Medium) : Option Nat := (m.flights.map Flight.finish).min?

/-- Those who get a packet. -/
def receivers (m : Medium) (f : Flight) : List Nat :=
  if m.blocked then []
  else (List.range m.radios.length).filter fun i => i ≠ f.sender && (m.radio i).hears f

/-- A packet is over. -/
def land (m : Medium) (f : Flight) : List MediumEvent × Medium :=
  (.sent f.sender :: (m.receivers f).map fun i => .delivered i f.data f.start,
    m.modify f.sender fun r => { r with transmitting := false })

/-- The packets are over, one after the other. -/
def landAll (m : Medium) : List Flight → List MediumEvent × Medium
  | [] => ([], m)
  | f :: rest =>
    let (events, m) := m.land f
    let (more, m) := m.landAll rest
    (events ++ more, m)

/-- What is over at the given time. -/
def takeDue (m : Medium) (now : Nat) : List MediumEvent × Medium :=
  let (due, pending) := m.flights.partition (·.finish ≤ now)
  { m with flights := pending }.landAll due

end Medium
end AirLink
