/-
  Half-duplex periods on a timeline of microseconds.  The own half of each
  period starts at the origin plus a multiple of the period and lasts half a
  period, rounded down; the partner sends in the rest.
-/
import AirLink.Bytes

namespace AirLink

/-- A division of the timeline into periods. -/
structure Duplex where
  period : Nat
  /-- where an own half starts, within a period -/
  origin : Nat
  two_le : 2 ≤ period
  origin_lt : origin < period
deriving DecidableEq

namespace Duplex

/-- Periods of the given length, at least two microseconds, with the start of
    an own half. -/
def ofPeriod (period origin : Nat) : Duplex :=
  ⟨max period 2, origin % max period 2, by omega, Nat.mod_lt _ (by omega)⟩

/-- The length of the own half. -/
def half (d : Duplex) : Nat := d.period / 2

/-- Moves the start of the own half. -/
def setOrigin (d : Duplex) (origin : Nat) : Duplex :=
  { d with
    origin := origin % d.period
    origin_lt := Nat.mod_lt _ (by have := d.two_le; omega) }

/-- A time relative to the origin. -/
def offset (d : Duplex) (t : Nat) : Int := signed64 t - d.origin

/-- The number of the period that holds a time. -/
def slot (d : Duplex) (t : Nat) : Int := d.offset t / d.period

/-- The time since the start of the period. -/
def phase (d : Duplex) (t : Nat) : Nat := (d.offset t % d.period).toNat

def isOwnHalf (d : Duplex) (t : Nat) : Bool := d.phase t < d.half

/-- Whether a packet fits into the rest of the own half. -/
def canSend (d : Duplex) (t airtime : Nat) : Bool :=
  d.isOwnHalf t && d.phase t + airtime ≤ d.half

/-- The time until the next own half starts. -/
def nextOwnHalf (d : Duplex) (t : Nat) : Nat := d.period - d.phase t

end Duplex
end AirLink
