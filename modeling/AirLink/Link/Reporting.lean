/-
  Periodic reports of one end's view of the link.  A report asks for a reply
  if nothing has been heard of the partner for two periods; a report received
  tells which packets got through, so that an end that fell behind the
  partner's window catches up with it.
-/
import AirLink.Message.Basic

namespace AirLink

/-- When the next report is due. -/
structure Reporting where
  period : Nat
  lastSent : Nat
  lastHeard : Nat
  replyRequested : Bool
  /-- the signal strength that the partner reported -/
  partnerRssi : Option Int8
deriving DecidableEq

namespace Reporting

def ofPeriod (micros : Nat) : Reporting := ⟨micros, 0, 0, false, none⟩

def reset (r : Reporting) (now : Nat) : Reporting :=
  { r with lastSent := now, lastHeard := now, replyRequested := false, partnerRssi := none }

/-- Takes note of a packet of the partner. -/
def onHeard (r : Reporting) (now : Nat) : Reporting :=
  { r with lastHeard := max r.lastHeard now }

def isDue (r : Reporting) (now : Nat) : Bool :=
  r.replyRequested || r.lastSent + r.period ≤ now

def delay (r : Reporting) (now : Nat) : Nat :=
  if r.replyRequested then 0 else r.lastSent + r.period - now

/-- The report to send. -/
def build (r : Reporting) (now : Nat) (rssi : Int8) (receiveCounter : UInt16) : Report :=
  ⟨rssi, receiveCounter, 2 * r.period < now - r.lastHeard⟩

def onSent (r : Reporting) (now : Nat) : Reporting :=
  { r with lastSent := now, replyRequested := false }

/-- The counter to go on with, if the partner has seen the next one or one
    ahead of it. -/
def catchUp? (receiveCounter next : UInt16) : Option UInt16 :=
  if (receiveCounter - next).toNat < 0x8000 then some (receiveCounter + 1) else none

/-- Takes a report. -/
def onReceived (r : Reporting) (report : Report) : Reporting :=
  { r with
    partnerRssi := some report.rssi
    replyRequested := r.replyRequested || report.requestReply }

end Reporting
end AirLink
