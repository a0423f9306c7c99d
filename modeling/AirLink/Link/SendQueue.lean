/-
  The user packet that waits to be sent.  It is released once its score, which
  grows with the time it has waited and the time the link has been idle, is
  above its priority.  Low priorities are sent sooner.
-/
import AirLink.Packet.Frame

namespace AirLink

/-- A packet that waits. -/
structure QueuedPacket where
  port : UInt8
  payload : Bytes
  priority : UInt8
  requested : Nat
deriving DecidableEq

/-- Room for one packet. -/
structure SendQueue where
  pending : Option QueuedPacket
  lastSent : Nat
  period : Nat
  period_pos : 0 < period

namespace SendQueue

/-- Points of the score that one duplex period is worth. -/
def scorePerPeriod : Nat := 16

def ofPeriod (period : Nat) : SendQueue := ⟨none, 0, max period 1, Nat.le_max_right period 1⟩

/-- Queues a packet, unless one is waiting, or it is none that a user may
    send. -/
def request (q : SendQueue) (port : UInt8) (payload : Bytes) (priority : UInt8) (now : Nat) :
    Bool × SendQueue :=
  if q.pending.isSome ∨ port = linkPort ∨ maxPayloadSize < payload.length then (false, q)
  else (true, { q with pending := some ⟨port, payload, priority, now⟩ })

def cancel (q : SendQueue) : SendQueue := { q with pending := none }

def isPending (q : SendQueue) : Bool := q.pending.isSome

/-- Takes note of a transmission. -/
def onSent (q : SendQueue) (now : Nat) : SendQueue := { q with lastSent := now }

/-- The time a packet has waited plus the time the link has been idle. -/
def weight (q : SendQueue) (p : QueuedPacket) (now : Nat) : Nat :=
  (now - p.requested) + (now - q.lastSent)

/-- What the weight, in points per period, has to reach. -/
def threshold (q : SendQueue) (priority : UInt8) : Nat := (priority.toNat + 1) * q.period

/-- The score of the packet that waits. -/
def score (q : SendQueue) (now : Nat) : Option Nat :=
  q.pending.map fun p => q.weight p now * scorePerPeriod / q.period

/-- The packet that waits, if it is to be sent. -/
def released (q : SendQueue) (now : Nat) : Option QueuedPacket :=
  q.pending.filter fun p => q.threshold p.priority ≤ q.weight p now * scorePerPeriod

/-- The time until the packet is released.  Both parts of its weight grow, so
    it takes half of what is missing. -/
def releaseDelay (q : SendQueue) (now : Nat) : Option Nat :=
  q.pending.map fun p =>
    let needed := (q.threshold p.priority + (scorePerPeriod - 1)) / scorePerPeriod
    (needed - q.weight p now + 1) / 2

/-- Removes the packet, which was sent. -/
def complete (q : SendQueue) (now : Nat) : SendQueue :=
  { q with pending := none, lastSent := now }

end SendQueue
end AirLink
