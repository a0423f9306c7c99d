/-
  How long it takes to encode a packet.  The time is taken as linear in the
  size of the packet and measured on the spot: `calibrate` times the encoding
  of the smallest and of the largest packets with the clock of the link.  An
  end adds it to the delays of the transceiver when it predicts the first bit
  of a packet.
-/
import AirLink.Clock.Basic
import AirLink.Packet.Frame

namespace AirLink

/-- The time to encode a packet. -/
structure Timing where
  base : Nat
  perByte : Nat
deriving DecidableEq, Repr

/-- Why there is no timing. -/
inductive TimingRefusal where
  /-- the clock does not tell the packets apart -/
  | unresolved (short long : Nat)
  | noRounds
deriving DecidableEq, Repr

def TimingRefusal.message : TimingRefusal → String
  | unresolved a b => s!"calibration measured {a}ns for a short packet but {b}ns for a long one"
  | noRounds => "calibration needs at least one round"

instance : ToString TimingRefusal := ⟨TimingRefusal.message⟩

namespace Timing

/-- No time at all. -/
def instant : Timing := ⟨0, 0⟩

/-- The timing through the mean times for the smallest and the largest
    packet, in nanoseconds. -/
def ofMeasurements (short long : Nat) : Except TimingRefusal Timing :=
  if long ≤ short then .error (.unresolved short long)
  else
    let perByte := (long - short) / (maxPacketSize - headerSize)
    .ok ⟨short - perByte * headerSize, perByte⟩

/-- Microseconds for a packet, rounded up, at most what 32 bits hold. -/
def micros (t : Timing) (size : Nat) : Nat :=
  min ((t.base + t.perByte * size + 999) / 1000) 0xFFFFFFFF

/-- The mean time of a number of rounds, from the readings before and after
    them. -/
def measure (clock : Clock) (rounds : Nat) (before after : UInt32) : Nat :=
  clock.elapsedNanos (clock.cyclestamp before) after / rounds

/-- The readings around the two measurements of a calibration. -/
structure Readings where
  shortBefore : UInt32
  shortAfter : UInt32
  longBefore : UInt32
  longAfter : UInt32
deriving DecidableEq

/-- The readings in the order in which they are made. -/
def Readings.ofSequence (r : Nat → UInt32) : Readings := ⟨r 0, r 1, r 2, r 3⟩

/-- The timing from a number of rounds of each measurement. -/
def calibrate (clock : Clock) (rounds : Nat) (r : Readings) : Except TimingRefusal Timing :=
  if rounds = 0 then .error .noRounds
  else ofMeasurements (measure clock rounds r.shortBefore r.shortAfter)
    (measure clock rounds r.longBefore r.longAfter)

end Timing
end AirLink
