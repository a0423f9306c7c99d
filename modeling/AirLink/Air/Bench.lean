/-
  One endpoint on a bench: the reading of the clock's source and the mood of
  the radio are set by hand, and a partner's session seals packets for it.
-/
import AirLink.Link.Endpoint

namespace AirLink

/-- An endpoint and its surroundings. -/
structure Bench where
  endpoint : Endpoint
  moment : Moment
  /-- the session of a partner that is no endpoint -/
  partner : Option Session

namespace Bench

/-- A bench with a radio that is free. -/
def create (endpoint : Endpoint) (raw : UInt32) (partner : Option Session) : Bench :=
  ⟨endpoint, ⟨raw, true, true⟩, partner⟩

def clock (b : Bench) : Clock := b.endpoint.station.clock

/-- The reading of the source a number of cycles from now, ahead or back. -/
def readingIn (b : Bench) (cycles : Int) : UInt32 :=
  UInt32.ofInt ((b.moment.raw.toNat + cycles) % (b.clock.source.overflow.toNat + 1))

/-- Lets the source count. -/
def advance (b : Bench) (cycles : Nat) : Bench :=
  { b with moment := { b.moment with raw := b.readingIn cycles } }

/-- Sets what the radio says of itself, and whether it takes packets. -/
def setRadio (b : Bench) (available accepts : Bool) : Bench :=
  { b with moment := { b.moment with available, accepts } }

/-- Sets the endpoint up while the source answers the given readings, and the
    current one after them. -/
def setup (b : Bench) (readings : List UInt32) : Except EndpointRefusal Unit × Bench :=
  let r (i : Nat) := readings.getD i b.moment.raw
  let (result, endpoint) := b.endpoint.setup (r 0) (r 1) (.ofSequence fun i => r (i + 2))
  (result, { b with endpoint })

/-- The partner takes a session id and the identity of the endpoint, and
    calculates its keys.  Yields in how many steps. -/
def introduce (b : Bench) (p : Session) (id : SessionId) : Except SessionRefusal Nat × Bench :=
  let p := p.setId id
  match p.setPartner b.endpoint.station.session.identity with
  | .error r => (.error r, { b with partner := some p })
  | .ok p =>
    let (count, p) := p.calculateAll
    (count, { b with partner := some p })

/-- A packet reaches the endpoint. -/
def receive (b : Bench) (data : Bytes) (captured : UInt32) (rssi : Int8) : Except Fault Bench := do
  return { b with endpoint := ← b.endpoint.onReceive b.moment data captured rssi }

/-- What the endpoint did to its surroundings. -/
def flush (b : Bench) : List Effect × Bench :=
  let (effects, endpoint) := b.endpoint.flush
  (effects, { b with endpoint })

end Bench
end AirLink
