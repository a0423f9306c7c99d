/-
  Link time, the timeline that the two ends share: whole seconds on a ring of
  `2 ^ 32` and the microseconds within the second.

  `LinkTime.ofMicros` maps a signed number of microseconds onto the ring and
  `LinkTime.shift` moves along it; `LinkTime.since` is the signed distance of
  two points, the short way round.  An `Offset` is such a distance as the
  messages carry it: two signed fields of one sign.
-/
namespace AirLink

/-- Microseconds in a second. -/
def microsPerSecond : Nat := 1000000

/-- A point of link time. -/
structure LinkTime where
  /-- whole seconds, modulo `2 ^ 32` -/
  seconds : UInt32
  /-- microseconds within the second -/
  subSeconds : UInt32
deriving DecidableEq, Repr

/-- A signed distance of two points of link time.  Both fields have the same
    sign, and the second stays below a second. -/
structure Offset where
  seconds : Int32
  subSeconds : Int32
deriving DecidableEq

namespace Offset

/-- The distance of a number of microseconds, split towards zero. -/
def ofMicros (m : Int) : Offset :=
  ⟨Int32.ofInt (m.tdiv microsPerSecond), Int32.ofInt (m.tmod microsPerSecond)⟩

def toMicros (e : Offset) : Int := e.seconds.toInt * microsPerSecond + e.subSeconds.toInt

/-- The distance in microseconds, limited to what a signed 32-bit field can
    hold. -/
def toMicrosClamped (e : Offset) : Int32 :=
  Int32.ofInt (max (-0x80000000) (min e.toMicros 0x7FFFFFFF))

end Offset

namespace LinkTime

/-- The origin, used for packets that are not bound to time. -/
def zero : LinkTime := ⟨0, 0⟩

/-- The microseconds stay within the second. -/
def Normal (t : LinkTime) : Prop := t.subSeconds.toNat < microsPerSecond

instance (t : LinkTime) : Decidable t.Normal := inferInstanceAs (Decidable (_ < _))

/-- The point with the given fields, whole seconds of the second field
    carried over into the first. -/
def normalize (seconds subSeconds : UInt32) : LinkTime :=
  ⟨seconds + UInt32.ofNat (subSeconds.toNat / microsPerSecond),
    UInt32.ofNat (subSeconds.toNat % microsPerSecond)⟩

/-- The point a signed number of microseconds from the origin. -/
def ofMicros (m : Int) : LinkTime :=
  ⟨UInt32.ofInt (m / microsPerSecond), UInt32.ofInt (m % microsPerSecond)⟩

/-- Microseconds from the origin, for a point that did not wrap. -/
def toMicros (t : LinkTime) : Nat := t.seconds.toNat * microsPerSecond + t.subSeconds.toNat

/-- The point a signed number of whole seconds later. -/
def shiftSeconds (t : LinkTime) (seconds : Int) : LinkTime :=
  { t with seconds := t.seconds + UInt32.ofInt seconds }

/-- The point a signed number of microseconds later. -/
def shift (t : LinkTime) (micros : Int) : LinkTime :=
  let total := t.subSeconds.toNat + micros
  ⟨t.seconds + UInt32.ofInt (total / microsPerSecond), UInt32.ofInt (total % microsPerSecond)⟩

/-- The signed distance from `earlier` to `t` in microseconds, right as long
    as the two are less than half the ring apart. -/
def since (t earlier : LinkTime) : Int :=
  (t.seconds - earlier.seconds).toInt32.toInt * microsPerSecond + t.subSeconds.toNat
    - earlier.subSeconds.toNat

/-- How far an estimate is ahead of the truth. -/
def errorTo (estimate truth : LinkTime) : Offset := Offset.ofMicros (estimate.since truth)

/-- Seconds, a point and six digits. -/
def toText (t : LinkTime) : String :=
  let digits := toString t.subSeconds.toNat
  toString t.seconds.toNat ++ "." ++ String.ofList (List.replicate (6 - digits.length) '0') ++ digits

end LinkTime
end AirLink
