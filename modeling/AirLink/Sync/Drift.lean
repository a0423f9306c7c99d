/-
  Turning one-time corrections of a clock into a tune: the drift since the
  last correction is added to the tune, smoothed so that a quarter of it
  takes effect.
-/
import AirLink.Bytes

namespace AirLink

/-- The tune and the time of the last correction. -/
structure Drift where
  /-- the largest tune in either direction, in parts per million -/
  tolerance : Nat
  tune : Int
  lastCorrection : Option Nat
deriving DecidableEq

namespace Drift

/-- No tune yet.  The tolerance is limited to what a signed 32-bit tune can
    reach. -/
def ofTolerance (ppm : UInt32) : Drift := ⟨min ppm.toNat 0x7FFFFFFF, 0, none⟩

/-- A tune limited to the tolerance. -/
def clamp (d : Drift) (ppm : Int) : Int := max (-d.tolerance) (min ppm d.tolerance)

/-- The tune after a correction of so many microseconds, so long after the
    last one. -/
def smooth (d : Drift) (correction : Int) (elapsed : Nat) : Int :=
  let drift := (correction * 1000000).tdiv (signed64 elapsed)
  d.clamp ((d.tune * 3 + (d.tune + drift)).tdiv 4)

/-- Takes note of a correction.  The first one only starts the measurement. -/
def onCorrection (d : Drift) (correction : Int) (now : Nat) : Drift :=
  let tune := match d.lastCorrection with
    | some last => if last < now then d.smooth correction (now - last) else d.tune
    | none => d.tune
  { d with tune, lastCorrection := some now }

def reset (d : Drift) : Drift := { d with tune := 0, lastCorrection := none }

end Drift
end AirLink
