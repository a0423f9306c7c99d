/-
  Smearing a drift correction into a clock: with a tune of `p` parts per
  million the clock moves one microsecond in the direction of the tune every
  `1000000 / |p|` microseconds, rounded down.
-/
import AirLink.Fault
import AirLink.Bytes

namespace AirLink

/-- A tune and the last of its steps that was handed out. -/
structure Smear where
  /-- the largest tune in either direction, in parts per million -/
  tolerance : Nat
  /-- the effective tune, in parts per million -/
  tune : Int
  lastStep : Nat
deriving DecidableEq

namespace Smear

/-- No tune yet.  The tolerance is limited to what a signed 32-bit tune can
    reach. -/
def ofTolerance (ppm : UInt32) : Smear := ⟨min ppm.toNat 0x7FFFFFFF, 0, 0⟩

/-- A tune limited to the tolerance. -/
def clamp (s : Smear) (ppm : Int) : Int := max (-s.tolerance) (min ppm s.tolerance)

/-- Sets the tune, whose steps count from `now`. -/
def setTune (s : Smear) (ppm : Int) (now : Nat) : Smear :=
  { s with tune := s.clamp ppm, lastStep := now }

/-- Microseconds between two steps. -/
def stepPeriod (s : Smear) : Option Nat :=
  if s.tune = 0 then none else some (1000000 / s.tune.natAbs)

/-- The microseconds to add to the clock for the steps due up to `now`.
    Above a million parts per million there is no time between two steps. -/
def advance (s : Smear) (now : Nat) : Except Fault (Int × Smear) :=
  match s.stepPeriod with
  | none => .ok (0, { s with lastStep := now })
  | some 0 => .error .zeroStepPeriod
  | some period =>
    let steps := (now - s.lastStep) / period
    .ok (signed64 steps * s.tune.sign, { s with lastStep := s.lastStep + steps * period })

/-- Time until the next step, if a tune is set. -/
def nextStep (s : Smear) (now : Nat) : Option Nat :=
  s.stepPeriod.map fun period => s.lastStep + period - now

end Smear
end AirLink
