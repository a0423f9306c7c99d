/-
  The two ends of a link.  Each packet carries the direction it travels in
  (in its nonce), so that neither end takes its own packets for the
  partner's.
-/
namespace AirLink

/-- The end of the link: the server advertises and keeps the reference
    clock, the client searches and adjusts. -/
inductive Role where
  | server
  | client
deriving DecidableEq, Repr

namespace Role

/-- The other end. -/
def partner : Role → Role
  | server => client
  | client => server

/-- The direction byte of the packets this end sends. -/
def sendDirection : Role → UInt8
  | server => 0x5C
  | client => 0xC5

/-- The direction byte of the packets this end receives. -/
def receiveDirection (r : Role) : UInt8 := r.partner.sendDirection

/-- The name of an end in reports. -/
def name : Role → String
  | server => "Server"
  | client => "Client"

@[simp] theorem partner_partner (r : Role) : r.partner.partner = r := by cases r <;> rfl

@[simp] theorem receiveDirection_partner (r : Role) :
    r.partner.receiveDirection = r.sendDirection := by cases r <;> rfl

theorem sendDirection_inj {r r' : Role} : r.sendDirection = r'.sendDirection ↔ r = r' := by
  cases r <;> cases r' <;> decide

theorem sendDirection_ne_receiveDirection (r : Role) :
    r.sendDirection ≠ r.receiveDirection := by cases r <;> decide

end Role
end AirLink
