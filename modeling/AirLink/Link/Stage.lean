/-
  The stages of a link.  Both ends walk through the same ones:

    disabled → booting → awaiting → pairing → switchingToLinking
      → authenticating → syncing → switchingToLinked → linked

  A timeout or a failure leads from any stage after `awaiting` back to it,
  and a stop leads to `disabled`.
-/
namespace AirLink

/-- A stage of the link. -/
inductive Stage where
  | disabled
  | booting
  /-- looking for a partner -/
  | awaiting
  /-- calculating the keys of the session -/
  | pairing
  /-- waiting for the common moment to use the session keys -/
  | switchingToLinking
  | authenticating
  /-- agreeing on the link time -/
  | syncing
  /-- waiting for the common moment to use the link time -/
  | switchingToLinked
  | linked
deriving DecidableEq, Repr

namespace Stage

/-- From the switch to linking to the link itself, time is limited. -/
def isLinking : Stage → Bool
  | switchingToLinking | authenticating | syncing | switchingToLinked => true
  | _ => false

/-- Whether the endpoint is off, or has not had its first tick yet. -/
def isOff : Stage → Bool
  | disabled | booting => true
  | _ => false

/-- The name of a stage in reports. -/
def name : Stage → String
  | disabled => "Disabled"
  | booting => "Booting"
  | awaiting => "AwaitingLink"
  | pairing => "Pairing"
  | switchingToLinking => "SwitchingToLinking"
  | authenticating => "Authenticating"
  | syncing => "ClockSyncing"
  | switchingToLinked => "SwitchingToLinked"
  | linked => "Linked"

end Stage
end AirLink
