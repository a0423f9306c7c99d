/-
  A raw cycle counter and the overflow tracking on top of it.

  A `Source` counts up to its overflow value and starts over at zero.
  `Source.check` accepts it if it wraps rarely enough to be watched; an
  accepted source is a `Rate`, which carries these bounds.  A `Counter` turns
  raw readings into cyclestamps, 32-bit counts that go on across overflows
  and wrap at `2 ^ 32` only.  Cyclestamps are compared by their wrapped
  difference (`Counter.cyclesBetween`).
-/
import AirLink.Clock.LinkTime

namespace AirLink

/-- A free-running cycle counter: it counts through `overflow` and starts
    over at zero. -/
structure Source where
  /-- the largest raw value -/
  overflow : UInt32
  /-- cycles per second -/
  frequency : UInt32
deriving DecidableEq, Repr

/-- A value that the source reads.  Every raw reading that an operation is given
    is one, current or captured. -/
def Source.Reads (s : Source) (raw : UInt32) : Prop := raw ≤ s.overflow

/-- A counter has to count through this many values before it wraps. -/
def minOverflow : Nat := 255

/-- Overflows are noticed only when the counter is read between two of them,
    so they must be this many microseconds apart. -/
def minRolloverMicros : Nat := 32000

/-- Why a source is of no use. -/
inductive Source.Refusal where
  | zeroFrequency
  | overflowTooLow (overflow : UInt32)
  | rolloverTooFast (micros : Nat)
deriving DecidableEq, Repr

def Source.Refusal.message : Source.Refusal → String
  | zeroFrequency => "clock source reports zero cycles per second"
  | overflowTooLow v =>
    s!"clock source overflows at {v.toNat} which is below the minimum of {minOverflow}"
  | rolloverTooFast us =>
    s!"clock source rolls over every {us}us, the minimum is {minRolloverMicros}us"

instance : ToString Source.Refusal := ⟨Source.Refusal.message⟩

/-- A source that wraps rarely enough. -/
structure Rate extends Source where
  frequency_pos : 0 < frequency.toNat
  overflow_ge : minOverflow ≤ overflow.toNat
  rollover_ge : minRolloverMicros ≤ (overflow.toNat + 1) * microsPerSecond / frequency.toNat

namespace Rate

/-- A megahertz counter of 32 bits. -/
def standard : Rate where
  overflow := 4294967295
  frequency := 1000000
  frequency_pos := by decide
  overflow_ge := by decide
  rollover_ge := by decide

/-- Cycles from one overflow to the next. -/
def period (r : Rate) : Nat := r.overflow.toNat + 1

/-- Microseconds from one overflow to the next, rounded down. -/
def periodMicros (r : Rate) : Nat := r.period * microsPerSecond / r.frequency.toNat

end Rate

/-- Accepts a source that wraps rarely enough. -/
def Source.check (s : Source) : Except Source.Refusal Rate :=
  if hf : s.frequency.toNat = 0 then .error .zeroFrequency
  else if ho : s.overflow.toNat < minOverflow then .error (.overflowTooLow s.overflow)
  else
    let rollover := (s.overflow.toNat + 1) * microsPerSecond / s.frequency.toNat
    if hr : rollover < minRolloverMicros then .error (.rolloverTooFast rollover)
    else .ok ⟨s, by omega, by omega, Nat.le_of_not_lt hr⟩

/-! ## Overflow tracking -/

/-- The overflows seen so far and the reading they were counted at. -/
structure Counter where
  rate : Rate
  overflows : Nat
  lastRaw : UInt32

namespace Counter

/-- A counter on a standard source, at its start. -/
def initial : Counter := ⟨.standard, 0, 0⟩

/-- A counter on the given source, which reads `raw` now. -/
def setup (s : Source) (raw : UInt32) : Except Source.Refusal Counter :=
  s.check.map fun rate => ⟨rate, 0, raw⟩

/-- Takes note of a reading; one below the last means that the source
    wrapped. -/
def observe (c : Counter) (raw : UInt32) : Counter :=
  { c with
    overflows := if raw < c.lastRaw then c.overflows + 1 else c.overflows
    lastRaw := raw }

/-- The cyclestamp of a current reading, counting an overflow since the last
    observation. -/
def cyclestamp (c : Counter) (raw : UInt32) : UInt32 :=
  if c.rate.overflow.toNat + 1 = 0x100000000 then raw
  else UInt32.ofNat ((c.observe raw).overflows * c.rate.period + raw.toNat)

/-- The cycles that passed since a reading captured less than a source
    period ago.  The source reads it (`Source.Reads`), so it is less than a period
    above the current one and the difference is not cut off. -/
def age (c : Counter) (captured now : UInt32) : Nat :=
  (now.toNat + c.rate.period - captured.toNat) % c.rate.period

/-- The cyclestamp of a captured reading of the source, from the current
    one. -/
def cyclestampOfCapture (c : Counter) (captured now : UInt32) : UInt32 :=
  c.cyclestamp now - UInt32.ofNat (c.age captured now)

/-- The cycles from one cyclestamp to a later one. -/
def cyclesBetween (start stop : UInt32) : UInt32 := stop - start

/-- Cycles in microseconds, at most what 32 bits hold. -/
def toMicros (c : Counter) (cycles : UInt32) : Nat :=
  min (cycles.toNat * microsPerSecond / c.rate.frequency.toNat) 0xFFFFFFFF

/-- Microseconds since a cyclestamp. -/
def elapsed (c : Counter) (start raw : UInt32) : Nat :=
  c.toMicros (cyclesBetween start (c.cyclestamp raw))

/-- The delay after which the counter should be observed again: an eighth of
    a source period before the next overflow, or before the one after it if
    that moment has passed. -/
def nextCheck (c : Counter) (raw : UInt32) : Nat :=
  let period := c.rate.periodMicros
  let margin := period / 8
  let remaining := (c.rate.period - min raw.toNat c.rate.overflow.toNat) * microsPerSecond
    / c.rate.frequency.toNat
  min (if margin < remaining then remaining - margin else remaining + period - margin)
    0xFFFFFFFF

end Counter
end AirLink
