/-
  Protection against repeated packets.  The packets of one end are numbered
  modulo `2 ^ 16`, and a number counts only if it is ahead of the last one
  that did, by no more than a tolerance.
-/
namespace AirLink

/-- The last number accepted. -/
structure ReplayWindow where
  last : Option UInt16
  /-- how far ahead a number may be, less than half the ring -/
  tolerance : Nat
  tolerance_lt : tolerance < 0x8000
deriving DecidableEq

/-- The number of a packet that is old, or too far ahead. -/
structure CounterRefusal where
  counter : UInt16
  last : UInt16
deriving DecidableEq, Repr

def CounterRefusal.message (r : CounterRefusal) : String :=
  s!"counter {r.counter.toNat} outside the receive window after {r.last.toNat}"

instance : ToString CounterRefusal := ⟨CounterRefusal.message⟩

namespace ReplayWindow

def ofTolerance (tolerance : UInt16) : ReplayWindow :=
  ⟨none, min tolerance.toNat 0x7FFF, by omega⟩

def reset (w : ReplayWindow) : ReplayWindow := { w with last := none }

/-- How far a number is ahead of another on the ring. -/
def ahead (counter last : UInt16) : Nat := (counter - last).toNat

/-- Takes a number.  Yields how many were left out before it. -/
def accept (w : ReplayWindow) (counter : UInt16) : Except CounterRefusal (Nat × ReplayWindow) :=
  match w.last with
  | none => .ok (0, { w with last := some counter })
  | some last =>
    if 0 < ahead counter last ∧ ahead counter last ≤ w.tolerance then
      .ok (ahead counter last - 1, { w with last := some counter })
    else .error ⟨counter, last⟩

end ReplayWindow
end AirLink
