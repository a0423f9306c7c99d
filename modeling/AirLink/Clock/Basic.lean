/-
  The clock of one end of the link, in layers on a raw cycle counter:

  * the monotonic time counts microseconds and is never shifted; every local
    deadline lives on it (`Clock.monotonic`);
  * link time is the monotonic time plus a signed offset, which is what the
    two ends agree on (`Clock.linkTime`);
  * a tune smears a drift correction into the offset (`Clock.runCheck`).

  The clock does not read its source: each operation is given the raw reading
  at which it happens, and a capture the one it was made at.  Both are values
  that the source reads (`Source.Reads`).
-/
import AirLink.Clock.Counter
import AirLink.Clock.Smear

namespace AirLink

/-- A clock on a cycle counter. -/
structure Clock where
  source : Source
  counter : Counter
  running : Bool
  /-- the cyclestamp up to which `total` counts -/
  lastCycle : UInt32
  /-- cycles on the time base -/
  total : Nat
  /-- link time minus monotonic time, in microseconds -/
  offset : Int
  smear : Smear

namespace Clock

/-- A clock that is not set up: it takes its source for a standard one. -/
def ofSource (source : Source) (tolerance : UInt32) : Clock where
  source := source
  counter := .initial
  running := false
  lastCycle := 0
  total := 0
  offset := 0
  smear := .ofTolerance tolerance

/-- Checks the source and starts the time base at its reading.  The source
    is read twice. -/
def setup (c : Clock) (first second : UInt32) : Except Source.Refusal Clock :=
  (Counter.setup c.source first).map fun counter =>
    { c with
      counter
      lastCycle := counter.cyclestamp second
      total := (counter.cyclestamp second).toNat }

/-- Starts the clock.  Yields whether its source has to be started. -/
def start (c : Clock) : Bool × Clock := (!c.running, { c with running := true })

/-- Stops the clock.  Yields whether its source has to be stopped. -/
def stop (c : Clock) : Bool × Clock := (c.running, { c with running := false })

def cyclestamp (c : Clock) (raw : UInt32) : UInt32 := c.counter.cyclestamp raw

/-- Microseconds since a cyclestamp. -/
def elapsed (c : Clock) (start raw : UInt32) : Nat := c.counter.elapsed start raw

/-- Nanoseconds since a cyclestamp, to measure short operations. -/
def elapsedNanos (c : Clock) (start raw : UInt32) : Nat :=
  (Counter.cyclesBetween start (c.cyclestamp raw)).toNat * 1000000000
    / c.counter.rate.frequency.toNat

/-- Cycles of the time base in microseconds, at most what 64 bits hold. -/
def cyclesToMicros (c : Clock) (cycles : Nat) : Nat :=
  min (cycles * microsPerSecond / c.counter.rate.frequency.toNat) 0xFFFFFFFFFFFFFFFF

/-! ## The monotonic timeline -/

/-- Cycles on the time base at a current reading. -/
def cyclesAt (c : Clock) (raw : UInt32) : Nat :=
  c.total + (Counter.cyclesBetween c.lastCycle (c.cyclestamp raw)).toNat

/-- Monotonic microseconds at a current reading. -/
def monotonic (c : Clock) (raw : UInt32) : Nat := c.cyclesToMicros (c.cyclesAt raw)

/-- Monotonic microseconds of a reading captured in the recent past. -/
def monotonicAt (c : Clock) (now captured : UInt32) : Nat :=
  let delta := (c.counter.cyclestampOfCapture captured now - c.lastCycle).toInt32.toInt
  c.cyclesToMicros (c.total + delta).toNat

/-- Takes note of a reading and moves the time base up to it. -/
def observe (c : Clock) (raw : UInt32) : Clock :=
  let counter := c.counter.observe raw
  let stamp := counter.cyclestamp raw
  { c with
    counter
    total := c.total + (Counter.cyclesBetween c.lastCycle stamp).toNat
    lastCycle := stamp }

/-! ## Link time -/

/-- Link time at a monotonic time. -/
def linkTimeAt (c : Clock) (monotonic : Nat) : LinkTime :=
  .ofMicros (signed64 monotonic + c.offset)

/-- Link time at a current reading. -/
def linkTime (c : Clock) (raw : UInt32) : LinkTime := c.linkTimeAt (c.monotonic raw)

/-- Link time of a captured reading. -/
def linkTimeOfCapture (c : Clock) (now captured : UInt32) : LinkTime :=
  c.linkTimeAt (c.monotonicAt now captured)

/-- Moves link time by microseconds. -/
def shift (c : Clock) (micros : Int) : Clock := { c with offset := c.offset + micros }

/-- Moves link time by whole seconds. -/
def shiftSeconds (c : Clock) (seconds : Int) : Clock := c.shift (seconds * microsPerSecond)

/-- The effective tune, in parts per million. -/
def tune (c : Clock) : Int := c.smear.tune

/-- Sets the tune from a monotonic time on. -/
def setTune (c : Clock) (ppm : Int) (now : Nat) : Clock :=
  { c with smear := c.smear.setTune ppm now }

/-- Housekeeping: observes the source and applies the steps of the tune that
    are due.  Yields the delay after which it has to run again. -/
def runCheck (c : Clock) (raw : UInt32) : Except Fault (Nat × Clock) := do
  let c := c.observe raw
  let now := c.monotonic raw
  let (step, smear) ← c.smear.advance now
  let check := c.counter.nextCheck raw
  let delay := match smear.nextStep now with
    | some next => min check (min next 0xFFFFFFFF)
    | none => check
  return (delay, { c with smear, offset := c.offset + step })

end Clock
end AirLink
