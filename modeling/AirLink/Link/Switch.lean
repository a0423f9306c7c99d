/-
  Switching both ends to another stage at the same moment.  One end announces
  the switch, again and again, with the time remaining until it; the other
  acknowledges, and works out the moment from the arrival of an announcement.
-/
namespace AirLink

/-- What has become of an announced switch. -/
inductive SwitchOutcome where
  | pending
  /-- the moment has come, and the partner knew -/
  | completed
  /-- the moment has come, and the partner did not acknowledge -/
  | failed
  /-- the moment came before a single announcement; there is a new one -/
  | restarted
deriving DecidableEq, Repr

/-- The name of an outcome in reports. -/
def SwitchOutcome.name : SwitchOutcome → String
  | pending => "Pending"
  | completed => "Completed"
  | failed => "Failed"
  | restarted => "Restarted"

/-- The end that announces a switch. -/
structure Announcer where
  /-- how long a switch is announced -/
  duration : Nat
  deadline : Nat
  requestsSent : Nat
  ackSeen : Bool
deriving DecidableEq

namespace Announcer

def ofDuration (micros : Nat) : Announcer := ⟨micros, 0, 0, false⟩

/-- Sets the moment. -/
def start (a : Announcer) (now : Nat) : Announcer :=
  { a with deadline := now + a.duration, requestsSent := 0, ackSeen := false }

/-- What to announce when the first bit arrives at the given time; nothing
    from the moment on. -/
def timeRemaining (a : Announcer) (firstBit : Nat) : Option UInt32 :=
  if firstBit < a.deadline then
    some (UInt32.ofNat (min (a.deadline - firstBit) 0xFFFFFFFF))
  else none

def onRequestSent (a : Announcer) : Announcer := { a with requestsSent := a.requestsSent + 1 }

def onAck (a : Announcer) : Announcer := { a with ackSeen := true }

/-- What has become of the switch; one that nobody heard of starts over. -/
def poll (a : Announcer) (now : Nat) : SwitchOutcome × Announcer :=
  if now < a.deadline then (.pending, a)
  else if a.ackSeen then (.completed, a)
  else if 0 < a.requestsSent then (.failed, a)
  else (.restarted, a.start now)

end Announcer

/-- The end that follows a switch. -/
structure Follower where
  target : Option Nat
  ackPending : Bool
deriving DecidableEq

namespace Follower

def idle : Follower := ⟨none, false⟩

/-- Takes an announcement, whose first bit arrived at the given time. -/
def onRequest (arrival : Nat) (timeRemaining : UInt32) : Follower :=
  ⟨some (arrival + timeRemaining.toNat), true⟩

def onAckSent (f : Follower) : Follower := { f with ackPending := false }

def isDue (f : Follower) (now : Nat) : Bool := f.target.any (· ≤ now)

/-- The time until the switch, if there is one. -/
def delay? (f : Follower) (now : Nat) : Option Nat := f.target.map (· - now)

end Follower
end AirLink
