/-
  What an endpoint reports of itself: its stage and its counts.
-/
import AirLink.Role
import AirLink.Link.Stage

namespace AirLink

/-- The counts an endpoint keeps. -/
structure Tally where
  sent : Nat
  received : Nat
  /-- packets of the partner that are missing -/
  lost : Nat
  rejected : Nat
  /-- packets that the radio began to receive in vain -/
  broken : Nat
  lastRssi : Option Int8
  /-- 255 for a perfect clock -/
  clockQuality : Nat
  failedAttempts : Nat
  linkLosses : Nat
  broadRequests : Nat
deriving DecidableEq

def Tally.zero : Tally := ⟨0, 0, 0, 0, 0, none, 0, 0, 0, 0⟩

/-- The state of a link. -/
structure Status where
  stage : Stage
  role : Role
  /-- monotonic time at which the link was established -/
  linkedSince : Option Nat
  tally : Tally
  partnerRssi : Option Int8
  /-- the share of the partner's packets that arrived, 0 to 255 -/
  receiveQuality : Nat
  tune : Int
deriving DecidableEq

end AirLink
